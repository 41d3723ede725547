import HeapAudit.Audit.Reachability
import HeapAudit.Proofs.Shadow.Catalog
import Mathlib.Data.List.Perm.Subperm
import Mathlib.Logic.Relation
import Mathlib.Order.Bounds.Basic

/-!
# Marking is reachability

What is reachable from roots is the least set of nodes that has every root and follows every
reference, null apart (`Reachability.Reachable`, `Reachability.isLeast_reachable`).  Roots and
references that lead to no node are passed over.

Marking keeps a worklist of addresses.  In which order the addresses are taken and the references
of a node are added does not matter, so a visit is a relation here: any pending address may be the
next one, and the new ones may be mixed with the old ones at will (`Reachability.Visits`).  A
queue, a stack and every order of the edges are cases of it.

An address may be pending many times, so the worklist may grow with every visit.  But the edges of
a node are added once at most, and therefore the pending addresses and the edges of the nodes that
are not reached yet become fewer together (`Reachability.Visits.budget_lt`).  It follows that every
marking comes to its end, and the budget of `Reachability.mark` is never used up
(`Reachability.mark_runs`).  Between two visits every address that still has to be reached is
pending (`Reachability.Worklist.Marks`), so at the end nothing is missing.
-/

namespace HeapAudit.Reachability

set_option autoImplicit false

variable {table : Table} {roots : List UInt64}

/-! ## What is reachable -/

/-- **The nodes that can be reached from roots.** -/
inductive Reachable (table : Table) (roots : List UInt64) : UInt64 → Prop where
  | root {address : UInt64} (listed : address ∈ roots) (known : (table.find? address).isSome) :
      Reachable table roots address
  | edge {address offset value : UInt64} {node : Node} (reached : Reachable table roots address)
      (found : table.find? address = some node) (held : node.edges.find? offset = some value)
      (nonnull : value ≠ 0) (known : (table.find? value).isSome) : Reachable table roots value

/-- A set of nodes with all roots and with all that its nodes refer to. -/
structure Closed (table : Table) (roots : List UInt64) (set : Set UInt64) : Prop where
  nodes : ∀ address ∈ set, (table.find? address).isSome
  roots : ∀ address ∈ roots, (table.find? address).isSome → address ∈ set
  edges : ∀ address ∈ set, ∀ node, table.find? address = some node →
    ∀ offset value, node.edges.find? offset = some value → value ≠ 0 →
      (table.find? value).isSome → value ∈ set

/-- **Reachability is the least closed set.** -/
theorem isLeast_reachable (table : Table) (roots : List UInt64) :
    IsLeast { set | Closed table roots set } { address | Reachable table roots address } := by
  constructor
  · refine ⟨fun address reached => ?_, fun address => .root, ?_⟩
    · cases reached with
      | root _ known => exact known
      | edge _ _ _ _ known => exact known
    · intro address reached node found offset value held nonnull known
      exact .edge reached found held nonnull known
  · intro set closed address reached
    induction reached with
    | root listed known => exact closed.roots _ listed known
    | edge _ found held nonnull known member =>
      exact closed.edges _ member _ found _ _ held nonnull known

theorem mem_successors {node : Node} {value : UInt64} :
    value ∈ successors node ↔ ∃ offset, node.edges.find? offset = some value ∧ value ≠ 0 := by
  rw [successors, List.mem_filter, decide_eq_true_eq, WordMap.values, List.mem_map]
  constructor
  · rintro ⟨⟨entry, listed, rfl⟩, nonnull⟩
    exact ⟨entry.1, WordMap.mem_entries.mp listed, nonnull⟩
  · rintro ⟨offset, held, nonnull⟩
    exact ⟨⟨(offset, value), WordMap.mem_entries.mpr held, rfl⟩, nonnull⟩

/-! ## Visits -/

/-- The addresses that a marking still has to visit and those that it has reached. -/
structure Worklist where
  pending : List UInt64
  reached : AddressSet

/-- **One visit.**  Some pending address is taken.  If it is that of a node and not reached yet,
then it is reached now and what its node refers to becomes pending, in any order; if not, it is
passed over. -/
inductive Visits (table : Table) : Worklist → Worklist → Prop where
  | pass {pending rest : List UInt64} {reached : AddressSet} {address : UInt64}
      (taken : pending.Perm (address :: rest))
      (done : reached.contains address = true ∨ table.find? address = none) :
      Visits table ⟨pending, reached⟩ ⟨rest, reached⟩
  | follow {pending rest next : List UInt64} {reached : AddressSet} {address : UInt64}
      {node : Node} (taken : pending.Perm (address :: rest))
      (new : reached.contains address = false) (found : table.find? address = some node)
      (added : next.Perm (successors node ++ rest)) :
      Visits table ⟨pending, reached⟩ ⟨next, reached.insert address ()⟩

theorem contains_insert {reached : AddressSet} {address sought : UInt64} :
    (reached.insert address ()).contains sought = true
      ↔ address = sought ∨ reached.contains sought = true := by
  rw [WordMap.contains, WordMap.find?_insert]
  split
  · rename_i here
    simp [here]
  · rename_i elsewhere
    simp [elsewhere, WordMap.contains]

/-- A marking goes on as long as an address is pending. -/
theorem exists_visits {worklist : Worklist} (pending : worklist.pending ≠ []) :
    ∃ next, Visits table worklist next := by
  obtain ⟨_ | ⟨address, rest⟩, reached⟩ := worklist
  · exact absurd rfl pending
  · by_cases before : reached.contains address = true
    · exact ⟨_, .pass (.refl _) (.inl before)⟩
    · rw [Bool.not_eq_true] at before
      cases found : table.find? address with
      | none => exact ⟨_, .pass (.refl _) (.inr found)⟩
      | some node => exact ⟨_, .follow (.refl _) before found (.refl _)⟩

/-! ## Every marking ends -/

/-- The edges of nodes that are not reached yet. -/
def unfollowed (table : Table) (reached : AddressSet) : List (UInt64 × UInt64) :=
  table.edgeSlots.filter fun slot => !reached.contains slot.1

/-- How many more visits there can be. -/
def Worklist.budget (table : Table) (worklist : Worklist) : Nat :=
  worklist.pending.length + (unfollowed table worklist.reached).length

theorem length_successors_le (node : Node) :
    (successors node).length ≤ node.edges.keys.length := by
  refine (List.length_filter_le _ _).trans ?_
  rw [WordMap.values, WordMap.keys, List.length_map, List.length_map]

/-- Reaching a node takes its edges out of those that are not followed yet. -/
theorem length_unfollowed_insert {reached : AddressSet} {address : UInt64} {node : Node}
    (new : reached.contains address = false) (found : table.find? address = some node) :
    node.edges.keys.length + (unfollowed table (reached.insert address ())).length
      ≤ (unfollowed table reached).length := by
  have own : ∀ slot ∈ node.edges.keys.map (address, ·), slot.1 = address := by
    intro slot member
    obtain ⟨offset, -, rfl⟩ := List.mem_map.mp member
    rfl
  have distinct : (node.edges.keys.map (address, ·)
      ++ unfollowed table (reached.insert address ())).Nodup := by
    refine List.Nodup.append ?_ (table.nodup_edgeSlots.filter _) ?_
    · exact node.edges.nodup_keys.map fun first second same => (Prod.mk.inj same).2
    · intro slot mine open'
      have unreached := (List.mem_filter.mp open').2
      rw [Bool.not_eq_true', ← Bool.not_eq_true, contains_insert] at unreached
      exact unreached (.inl (own slot mine).symm)
  have within : node.edges.keys.map (address, ·)
      ++ unfollowed table (reached.insert address ()) ⊆ unfollowed table reached := by
    intro slot member
    rw [unfollowed, List.mem_filter, Bool.not_eq_true']
    rcases List.mem_append.mp member with mine | open'
    · refine ⟨?_, by rw [own slot mine, new]⟩
      obtain ⟨offset, held, rfl⟩ := List.mem_map.mp mine
      refine table.mem_edgeSlots.mpr ⟨node.profile, ?_, WordMap.mem_keys.mp held⟩
      rw [Table.catalog, found, Option.map_some]
    · obtain ⟨listed, unreached⟩ := List.mem_filter.mp open'
      refine ⟨listed, ?_⟩
      rw [Bool.not_eq_true', ← Bool.not_eq_true, contains_insert, not_or] at unreached
      exact Bool.eq_false_iff.mpr unreached.2
  have fewer := (distinct.subperm within).length_le
  rwa [List.length_append, List.length_map] at fewer

/-- **Every visit uses up some of the budget.** -/
theorem Visits.budget_lt {current next : Worklist} (visits : Visits table current next) :
    next.budget table < current.budget table := by
  cases visits with
  | pass taken _ =>
    have fewer := taken.length_eq
    rw [List.length_cons] at fewer
    simp only [Worklist.budget]
    omega
  | @follow _ _ _ _ _ node taken new found added =>
    have fewer := taken.length_eq
    have more := added.length_eq
    have bounded := length_successors_le node
    have followed := length_unfollowed_insert new found
    rw [List.length_cons] at fewer
    rw [List.length_append] at more
    simp only [Worklist.budget]
    omega

/-- **Every marking ends.** -/
theorem wellFounded_visits (table : Table) :
    WellFounded fun next current => Visits table current next :=
  Subrelation.wf Visits.budget_lt (measure (Worklist.budget table)).wf

/-! ## What a marking has reached -/

/-- An address that is reached or will be visited. -/
def Worklist.Met (worklist : Worklist) (address : UInt64) : Prop :=
  worklist.reached.contains address = true ∨ address ∈ worklist.pending

/-- A node that is met stays so. -/
theorem Visits.met {current next : Worklist} (visits : Visits table current next)
    {address : UInt64} (known : (table.find? address).isSome) (met : current.Met address) :
    next.Met address := by
  cases visits with
  | pass taken done =>
    rcases met with reached | pending
    · exact .inl reached
    · rcases List.mem_cons.mp (taken.mem_iff.mp pending) with rfl | later
      · rcases done with before | missing
        · exact .inl before
        · rw [missing] at known
          cases known
      · exact .inr later
  | follow taken _ _ added =>
    rcases met with reached | pending
    · exact .inl (contains_insert.mpr (.inr reached))
    · rcases List.mem_cons.mp (taken.mem_iff.mp pending) with rfl | later
      · exact .inl (contains_insert.mpr (.inl rfl))
      · exact .inr (added.mem_iff.mpr (List.mem_append_right _ later))

/-- **The invariant between two visits**: what is reached or pending is reachable if it is a node,
and what reachability asks for next is met. -/
structure Worklist.Marks (table : Table) (roots : List UInt64) (worklist : Worklist) : Prop where
  reached : ∀ address, worklist.reached.contains address = true → Reachable table roots address
  pending : ∀ address ∈ worklist.pending, (table.find? address).isSome →
    Reachable table roots address
  roots : ∀ address ∈ roots, (table.find? address).isSome → worklist.Met address
  edges : ∀ address, worklist.reached.contains address = true →
    ∀ node, table.find? address = some node →
      ∀ value ∈ successors node, (table.find? value).isSome → worklist.Met value

theorem Worklist.Marks.start (table : Table) (roots : List UInt64) :
    Worklist.Marks table roots ⟨roots, ∅⟩ where
  reached := by
    intro address impossible
    rw [WordMap.contains, WordMap.find?_empty] at impossible
    cases impossible
  pending := fun _ => .root
  roots := fun _ listed _ => .inr listed
  edges := by
    intro address impossible
    rw [WordMap.contains, WordMap.find?_empty] at impossible
    cases impossible

/-- A visit keeps the invariant. -/
theorem Worklist.Marks.visits {current next : Worklist} (marks : current.Marks table roots)
    (visits : Visits table current next) : next.Marks table roots := by
  have met : ∀ {address : UInt64}, (table.find? address).isSome → current.Met address →
      next.Met address := visits.met
  cases visits with
  | pass taken _ =>
    refine ⟨marks.reached, fun address member => ?_, fun address listed known => ?_, ?_⟩
    · exact marks.pending address (taken.mem_iff.mpr (List.mem_cons_of_mem _ member))
    · exact met known (marks.roots address listed known)
    · intro address reached node found value member known
      exact met known (marks.edges address reached node found value member known)
  | @follow _ _ _ _ visited node taken _ found added =>
    have reachable : Reachable table roots visited := by
      refine marks.pending visited (taken.mem_iff.mpr List.mem_cons_self) ?_
      rw [found]
      rfl
    refine ⟨fun address reached => ?_, fun address member known => ?_,
      fun address listed known => ?_, ?_⟩
    · rcases contains_insert.mp reached with rfl | before
      · exact reachable
      · exact marks.reached address before
    · rcases List.mem_append.mp (added.mem_iff.mp member) with new | old
      · obtain ⟨offset, held, nonnull⟩ := mem_successors.mp new
        exact .edge reachable found held nonnull known
      · exact marks.pending address (taken.mem_iff.mpr (List.mem_cons_of_mem _ old)) known
    · exact met known (marks.roots address listed known)
    · intro address reached other present value member known
      rcases contains_insert.mp reached with rfl | before
      · rw [found] at present
        cases present
        exact .inr (added.mem_iff.mpr (List.mem_append_left _ member))
      · exact met known (marks.edges address before other present value member known)

theorem Worklist.Marks.runs {start last : Worklist} (marks : start.Marks table roots)
    (runs : Relation.ReflTransGen (Visits table) start last) : last.Marks table roots := by
  induction runs with
  | refl => exact marks
  | tail _ visits reached => exact reached.visits visits

/-- **When nothing is pending, all that is reachable is reached**, and nothing else. -/
theorem Worklist.Marks.contains_iff {last : Worklist} (marks : last.Marks table roots)
    (ended : last.pending = []) (address : UInt64) :
    last.reached.contains address = true ↔ Reachable table roots address := by
  have settled : ∀ {address : UInt64}, last.Met address →
      last.reached.contains address = true := by
    rintro address (reached | pending)
    · exact reached
    · rw [ended] at pending
      cases pending
  refine ⟨marks.reached address, fun reachable => ?_⟩
  induction reachable with
  | root listed known => exact settled (marks.roots _ listed known)
  | edge _ found held nonnull known before =>
    exact settled (marks.edges _ before _ found _ (mem_successors.mpr ⟨_, held, nonnull⟩) known)

/-! ## The marking that is made -/

/-- Within its budget, a marking goes on until nothing is pending. -/
theorem visit_runs (fuel : Nat) (pending : List UInt64) (reached : AddressSet)
    (room : Worklist.budget table ⟨pending, reached⟩ ≤ fuel) :
    Relation.ReflTransGen (Visits table) ⟨pending, reached⟩
      ⟨[], visit table fuel pending reached⟩ := by
  induction fuel generalizing pending reached with
  | zero =>
    have none : pending.length = 0 :=
      Nat.le_zero.mp ((Nat.le_add_right _ _).trans room)
    rw [List.eq_nil_of_length_eq_zero none]
    exact .refl
  | succ fuel onward =>
    cases pending with
    | nil => exact .refl
    | cons address rest =>
      have step : ∀ {next : Worklist}, Visits table ⟨address :: rest, reached⟩ next →
          Relation.ReflTransGen (Visits table) ⟨address :: rest, reached⟩
            ⟨[], visit table fuel next.pending next.reached⟩ := by
        intro next visits
        have less := visits.budget_lt
        exact .head visits (onward _ _ (Nat.le_of_lt_succ (less.trans_le room)))
      rw [visit]
      by_cases before : reached.contains address = true
      · rw [if_pos before]
        exact step (.pass (.refl _) (.inl before))
      · rw [if_neg before]
        rw [Bool.not_eq_true] at before
        cases found : table.find? address with
        | none => exact step (.pass (.refl _) (.inr found))
        | some node => exact step (.follow (.refl _) before found (.refl _))

/-- **The budget of a marking is never used up.** -/
theorem mark_runs (table : Table) (roots : List UInt64) :
    Relation.ReflTransGen (Visits table) ⟨roots, ∅⟩ ⟨[], mark table roots⟩ := by
  refine visit_runs _ roots ∅ (Nat.le_succ_of_le (Nat.add_le_add_left ?_ _))
  rw [← table.length_edgeSlots]
  exact List.length_filter_le _ _

theorem contains_mark_iff (table : Table) (roots : List UInt64) (address : UInt64) :
    (mark table roots).contains address = true ↔ Reachable table roots address :=
  ((Worklist.Marks.start table roots).runs (mark_runs table roots)).contains_iff rfl address

/-- Sets of the same addresses are the same set. -/
theorem AddressSet.ext {first second : AddressSet}
    (same : ∀ address, first.contains address = true ↔ second.contains address = true) :
    first = second := by
  refine WordMap.ext_find? fun address => Option.ext fun _ => ?_
  have both := same address
  rw [WordMap.contains, WordMap.contains, Option.isSome_iff_exists,
    Option.isSome_iff_exists] at both
  constructor
  · intro found
    exact (both.mp ⟨_, found⟩).choose_spec
  · intro found
    exact (both.mpr ⟨_, found⟩).choose_spec

/-! ## The comparison with the mark bits -/

theorem mem_markedNotReached {reached : AddressSet} {heap : Heap} {address : UInt64} :
    address ∈ (compare reached heap).markedNotReached
      ↔ heap.objects.contains address = true ∧ heap.isMarked address = true
        ∧ ¬ reached.contains address = true := by
  rw [compare, List.mem_filter, WordMap.mem_keys, Bool.and_eq_true, Bool.not_eq_true',
    ← Bool.not_eq_true]
  tauto

theorem mem_reachedNotMarked {reached : AddressSet} {heap : Heap} {address : UInt64} :
    address ∈ (compare reached heap).reachedNotMarked
      ↔ reached.contains address = true ∧ ¬ heap.isMarked address = true := by
  rw [compare, List.mem_filter, WordMap.mem_keys, Bool.not_eq_true', ← Bool.not_eq_true]

theorem Difference.isEmpty_iff {difference : Difference} :
    difference.isEmpty = true
      ↔ (∀ address, address ∉ difference.markedNotReached)
        ∧ ∀ address, address ∉ difference.reachedNotMarked := by
  rw [isEmpty, Bool.and_eq_true, List.isEmpty_iff, List.isEmpty_iff,
    List.eq_nil_iff_forall_not_mem, List.eq_nil_iff_forall_not_mem]

/-- **Marking is reachability.**  Every marking ends, and wherever it takes its addresses from and
in whatever order it adds them, it ends with the set that `mark` computes.  That is the least set
of nodes with all roots and with all that its nodes refer to.  Compared with the mark bits of a
heap, it gives by increasing address the live objects that are marked and not reachable and the
reachable addresses that are not marked; there are none of either exactly if every live object that
is marked is reachable and every reachable address is marked. -/
theorem marking_is_reachability (table : Table) (roots : List UInt64) (heap : Heap) :
    (WellFounded fun next current => Visits table current next)
      ∧ (∀ worklist, worklist.pending ≠ [] → ∃ next, Visits table worklist next)
      ∧ Relation.ReflTransGen (Visits table) ⟨roots, ∅⟩ ⟨[], mark table roots⟩
      ∧ (∀ last, Relation.ReflTransGen (Visits table) ⟨roots, ∅⟩ last → last.pending = [] →
        last.reached = mark table roots)
      ∧ IsLeast { set | Closed table roots set }
        { address | (mark table roots).contains address = true }
      ∧ (∀ address, (mark table roots).contains address = true ↔ Reachable table roots address)
      ∧ let difference := compare (mark table roots) heap
        difference.markedNotReached.Pairwise (· < ·)
        ∧ (∀ address, address ∈ difference.markedNotReached
          ↔ heap.objects.contains address = true ∧ heap.isMarked address = true
            ∧ ¬ Reachable table roots address)
        ∧ difference.reachedNotMarked.Pairwise (· < ·)
        ∧ (∀ address, address ∈ difference.reachedNotMarked
          ↔ Reachable table roots address ∧ ¬ heap.isMarked address = true)
        ∧ (difference.isEmpty = true
          ↔ (∀ address, heap.objects.contains address = true → heap.isMarked address = true →
              Reachable table roots address)
            ∧ ∀ address, Reachable table roots address → heap.isMarked address = true) := by
  have reached := contains_mark_iff table roots
  have least : { address | (mark table roots).contains address = true }
      = { address | Reachable table roots address } := Set.ext reached
  refine ⟨wellFounded_visits table, fun _ => exists_visits, mark_runs table roots, ?_, ?_,
    reached, ?_⟩
  · intro last runs ended
    refine AddressSet.ext fun address => ?_
    rw [((Worklist.Marks.start table roots).runs runs).contains_iff ended, reached]
  · rw [least]
    exact isLeast_reachable table roots
  · refine ⟨heap.objects.ordered_keys.filter _, fun address => ?_,
      (mark table roots).ordered_keys.filter _, fun address => ?_, ?_⟩
    · rw [mem_markedNotReached, reached]
    · rw [mem_reachedNotMarked, reached]
    · simp only [Difference.isEmpty_iff, mem_markedNotReached, mem_reachedNotMarked, reached,
        not_and, not_not]

-- A circle with a reference to nowhere and one to null, from roots of which two are no nodes.
example : (mark ((((((Table.empty 16).insert 0x10 .newObject 3).insert 0x30 .newObject 1).insert
      0x50 .newObject 1).setEdge 0x10 0 0x30).setEdge 0x10 8 0x70 |>.setEdge 0x30 0 0x10
        |>.setEdge 0x10 16 0) [0x30, 0, 0x90, 0x30]).keys
    = [0x10, 0x30] := by
  decide +kernel

end HeapAudit.Reachability
