import Std.Data.ExtTreeMap

/-!
# Finite maps keyed by 64-bit words

Addresses, byte offsets, slots and buffer numbers are all 64-bit words, and every
table of the library is a finite map from words.  A map is a search tree taken up
to its shape, so that every operation on one key is fast and two maps with the same
bindings are the same map (`WordMap.ext_find?`).

A map is looked at in two ways.  `WordMap.find?` answers for one key, and each
operation comes with an equation saying what `find?` answers afterwards.
`WordMap.entries` lists all bindings in strictly increasing key order
(`WordMap.ordered_entries`); `WordMap.mem_entries` connects the two.
-/

namespace HeapAudit

set_option autoImplicit false

/-- A finite map from words. -/
structure WordMap (β : Type) where
  tree : Std.ExtTreeMap UInt64 β

namespace WordMap

variable {β γ : Type}

/-! ## Operations -/

/-- The map without bindings. -/
def empty : WordMap β := ⟨∅⟩

instance : EmptyCollection (WordMap β) := ⟨empty⟩

instance : Inhabited (WordMap β) := ⟨empty⟩

/-- The value bound to a key. -/
def find? (map : WordMap β) (key : UInt64) : Option β := map.tree[key]?

/-- Whether a key is bound. -/
def contains (map : WordMap β) (key : UInt64) : Bool := (map.find? key).isSome

/-- Binds a key, replacing its previous value. -/
def insert (map : WordMap β) (key : UInt64) (value : β) : WordMap β :=
  ⟨map.tree.insert key value⟩

/-- Removes the binding of a key. -/
def erase (map : WordMap β) (key : UInt64) : WordMap β := ⟨map.tree.erase key⟩

/-- Changes the value of one key, if it is bound. -/
def modify (map : WordMap β) (key : UInt64) (transform : β → β) : WordMap β :=
  ⟨map.tree.modify key transform⟩

/-- Changes every value in place. -/
def mapValues (map : WordMap β) (transform : UInt64 → β → γ) : WordMap γ :=
  ⟨map.tree.map transform⟩

/-- The number of bindings. -/
def size (map : WordMap β) : Nat := map.tree.size

/-- The bindings in increasing key order. -/
def entries (map : WordMap β) : List (UInt64 × β) := map.tree.toList

/-- The bound keys in increasing order. -/
def keys (map : WordMap β) : List UInt64 := map.entries.map (·.1)

/-- The bound values in the order of their keys. -/
def values (map : WordMap β) : List β := map.entries.map (·.2)

/-- The entry with the greatest key not above a bound. -/
def floor? (map : WordMap β) (bound : UInt64) : Option (UInt64 × β) := map.tree.getEntryLE? bound

/-- The entry with the least key not below a bound. -/
def ceiling? (map : WordMap β) (bound : UInt64) : Option (UInt64 × β) :=
  map.tree.getEntryGE? bound

/-- The keys from `start` on that are below `stop`, at most as many as the first number. -/
def keysFrom (map : WordMap β) (stop : UInt64) : Nat → UInt64 → List UInt64
  | 0, _ => []
  | count + 1, start =>
    match map.ceiling? start with
    | none => []
    | some (key, _) => if key < stop then key :: keysFrom map stop count (key + 1) else []

/-- The keys in a range, in increasing order. -/
def keysWithin (map : WordMap β) (start stop : UInt64) : List UInt64 :=
  map.keysFrom stop map.size start

/-- The map holding the last binding of every key of a list. -/
def ofList (bindings : List (UInt64 × β)) : WordMap β :=
  bindings.foldl (fun map binding => map.insert binding.1 binding.2) empty

/-! ## Equality of maps -/

/-- **Two maps with the same bindings are the same map.** -/
theorem ext_find? {map other : WordMap β} (agree : ∀ key, map.find? key = other.find? key) :
    map = other := by
  obtain ⟨tree⟩ := map
  obtain ⟨tree'⟩ := other
  exact congrArg WordMap.mk (Std.ExtTreeMap.ext_getElem? agree)

/-- A binding is listed exactly if it is found. -/
theorem mem_entries {map : WordMap β} {key : UInt64} {value : β} :
    (key, value) ∈ map.entries ↔ map.find? key = some value :=
  Std.ExtTreeMap.mem_toList_iff_getElem?_eq_some

/-- Maps that list the same bindings are the same map. -/
theorem ext_entries {map other : WordMap β} (same : map.entries = other.entries) :
    map = other := by
  refine ext_find? fun key => Option.ext fun value => ?_
  rw [← mem_entries, ← mem_entries, same]

instance [DecidableEq β] : DecidableEq (WordMap β) := fun map other =>
  decidable_of_iff (map.entries = other.entries) ⟨ext_entries, fun same => same ▸ rfl⟩

/-! ## What each operation does to the bindings -/

@[simp] theorem find?_empty (key : UInt64) : (∅ : WordMap β).find? key = none :=
  Std.ExtTreeMap.getElem?_empty

theorem find?_insert (map : WordMap β) (key : UInt64) (value : β) (sought : UInt64) :
    (map.insert key value).find? sought
      = if key = sought then some value else map.find? sought := by
  simp [find?, insert, Std.ExtTreeMap.getElem?_insert]

theorem find?_erase (map : WordMap β) (key sought : UInt64) :
    (map.erase key).find? sought = if key = sought then none else map.find? sought := by
  simp [find?, erase, Std.ExtTreeMap.getElem?_erase]

theorem find?_modify (map : WordMap β) (key : UInt64) (transform : β → β) (sought : UInt64) :
    (map.modify key transform).find? sought
      = if key = sought then (map.find? sought).map transform else map.find? sought := by
  by_cases here : key = sought
  · subst here
    simp [find?, modify]
  · simp [find?, modify, Std.ExtTreeMap.getElem?_modify, here]

theorem find?_mapValues (map : WordMap β) (transform : UInt64 → β → γ) (sought : UInt64) :
    (map.mapValues transform).find? sought = (map.find? sought).map (transform sought) :=
  Std.ExtTreeMap.getElem?_map

/-! ## The bindings in order -/

/-- The bindings are listed by strictly increasing key. -/
theorem ordered_entries (map : WordMap β) :
    map.entries.Pairwise fun earlier later => earlier.1 < later.1 := by
  refine Std.ExtTreeMap.ordered_keys_toList.imp fun {earlier later} below => ?_
  exact Std.compare_eq_lt.mp below

/-- The keys are strictly increasing. -/
theorem ordered_keys (map : WordMap β) : map.keys.Pairwise (· < ·) :=
  List.pairwise_map.mpr map.ordered_entries

theorem mem_keys {map : WordMap β} {key : UInt64} : key ∈ map.keys ↔ map.contains key = true := by
  simp [keys, contains, mem_entries, Option.isSome_iff_exists]

theorem length_entries (map : WordMap β) : map.entries.length = map.size :=
  Std.ExtTreeMap.length_toList

theorem entries_mapValues (map : WordMap β) (transform : UInt64 → β → γ) :
    (map.mapValues transform).entries
      = map.entries.map fun entry => (entry.1, transform entry.1 entry.2) :=
  Std.ExtTreeMap.toList_map

/-- The greatest entry below a bound is the last one listed. -/
theorem floor?_eq_findRev? (map : WordMap β) (bound : UInt64) :
    map.floor? bound = map.entries.findRev? fun entry => entry.1 ≤ bound := by
  obtain ⟨⟨inner⟩⟩ := map
  induction inner using Std.ExtDTreeMap.inductionOn with
  | mk inner =>
    change Std.DTreeMap.Internal.Impl.Const.getEntryLE? bound inner.inner
      = (Std.DTreeMap.Internal.Impl.Const.toList inner.inner).findRev? _
    rw [Std.DTreeMap.Internal.Impl.Const.getEntryLE?_eq_map,
      Std.DTreeMap.Internal.Impl.getEntryLE?_eq_findRev? inner.wf.ordered,
      Std.DTreeMap.Internal.Impl.Const.toList_eq_toListModel_map]
    simp only [List.findRev?_eq_find?_reverse, ← List.map_reverse, List.find?_map]
    congr 2
    funext entry
    rw [Bool.eq_iff_iff]
    simp [Std.isLE_compare]

/-- The least entry above a bound is the first one listed. -/
theorem ceiling?_eq_find? (map : WordMap β) (bound : UInt64) :
    map.ceiling? bound = map.entries.find? fun entry => bound ≤ entry.1 := by
  obtain ⟨⟨inner⟩⟩ := map
  induction inner using Std.ExtDTreeMap.inductionOn with
  | mk inner =>
    change Std.DTreeMap.Internal.Impl.Const.getEntryGE? bound inner.inner
      = (Std.DTreeMap.Internal.Impl.Const.toList inner.inner).find? _
    rw [Std.DTreeMap.Internal.Impl.Const.getEntryGE?_eq_map,
      Std.DTreeMap.Internal.Impl.getEntryGE?_eq_find? inner.wf.ordered,
      Std.DTreeMap.Internal.Impl.Const.toList_eq_toListModel_map, List.find?_map]
    congr 2
    funext entry
    rw [Bool.eq_iff_iff]
    simp [Std.isGE_compare]

/-- What `floor?` finds is the binding with the greatest key not above the bound. -/
theorem floor?_eq_some_iff {map : WordMap β} {bound key : UInt64} {value : β} :
    map.floor? bound = some (key, value)
      ↔ map.find? key = some value ∧ key ≤ bound
        ∧ ∀ other, map.contains other = true → other ≤ bound → other ≤ key := by
  rw [floor?_eq_findRev?, List.findRev?_eq_find?_reverse, List.find?_eq_some_iff_append]
  constructor
  · rintro ⟨below, later, earlier, split, above⟩
    have listed : map.entries = earlier.reverse ++ (key, value) :: later.reverse := by
      rw [← List.reverse_reverse map.entries, split]
      simp
    have member : (key, value) ∈ map.entries := by simp [listed]
    refine ⟨mem_entries.mp member, by simpa using below, fun other bound' within => ?_⟩
    have ordered := map.ordered_entries
    obtain ⟨held, found⟩ := Option.isSome_iff_exists.mp bound'
    have place := mem_entries.mpr found
    rw [listed] at ordered place
    rcases List.mem_append.mp place with before | behind
    · exact UInt64.le_of_lt
        ((List.pairwise_append.mp ordered).2.2 _ before _ List.mem_cons_self)
    · rcases List.mem_cons.mp behind with here | after
      · exact UInt64.le_of_eq (congrArg Prod.fst here)
      · have := above _ (List.mem_reverse.mp after)
        simp only [Bool.not_eq_eq_eq_not, Bool.not_true, decide_eq_false_iff_not] at this
        exact absurd within this
  · rintro ⟨found, below, greatest⟩
    refine ⟨by simpa using below, ?_⟩
    obtain ⟨earlier, later, listed⟩ := List.append_of_mem (mem_entries.mpr found)
    refine ⟨later.reverse, earlier.reverse, by simp [listed], fun entry member => ?_⟩
    have ordered := map.ordered_entries
    rw [listed] at ordered
    have behind := List.mem_reverse.mp member
    have after := (List.pairwise_cons.mp (List.pairwise_append.mp ordered).2.1).1 _ behind
    have listed' : (entry.1, entry.2) ∈ map.entries := by
      rw [listed]
      exact List.mem_append_right _ (List.mem_cons_of_mem _ behind)
    have := greatest entry.1 (by simp [contains, mem_entries.mp listed'])
    simp only [Bool.not_eq_eq_eq_not, Bool.not_true, decide_eq_false_iff_not]
    exact fun within => absurd (UInt64.lt_of_lt_of_le after (this within)) (UInt64.lt_irrefl _)

/-! ## Ranges of keys -/

/-- A word below another one has a successor. -/
theorem succ_le_iff_lt {key stop : UInt64} (inside : key < stop) (other : UInt64) :
    key + 1 ≤ other ↔ key < other := by
  have below := UInt64.lt_iff_toNat_lt.mp inside
  have bounded := stop.toNat_lt
  have next : (key + 1).toNat = key.toNat + 1 := by
    rw [UInt64.toNat_add]
    simp only [UInt64.reduceToNat]
    omega
  rw [UInt64.le_iff_toNat_le, UInt64.lt_iff_toNat_lt, next]
  omega

/-- In an increasing list, the part of a range that starts at its first member. -/
theorem filter_range_of_lt {earlier later : List UInt64} {key start stop : UInt64}
    (ordered : (earlier ++ key :: later).Pairwise (· < ·))
    (skipped : ∀ other ∈ earlier, ¬ start ≤ other) (reached : start ≤ key)
    (inside : key < stop) :
    (earlier ++ key :: later).filter (fun other => start ≤ other && other < stop)
      = key :: (earlier ++ key :: later).filter (fun other => key + 1 ≤ other && other < stop) := by
  have above := (List.pairwise_cons.mp (List.pairwise_append.mp ordered).2.1).1
  have before := (List.pairwise_append.mp ordered).2.2
  have none_start : earlier.filter (fun other => start ≤ other && other < stop) = [] :=
    List.filter_eq_nil_iff.mpr fun other member => by simp [skipped other member]
  have none_next : earlier.filter (fun other => key + 1 ≤ other && other < stop) = [] :=
    List.filter_eq_nil_iff.mpr fun other member => by
      have := UInt64.lt_asymm (before other member key List.mem_cons_self)
      simp [succ_le_iff_lt inside, this]
  have same : later.filter (fun other => start ≤ other && other < stop)
      = later.filter (fun other => key + 1 ≤ other && other < stop) :=
    List.filter_congr fun other member => by
      have lower := above other member
      have reaches := UInt64.le_trans reached (UInt64.le_of_lt lower)
      simp [succ_le_iff_lt inside, lower, reaches]
  rw [List.filter_append, List.filter_append, none_start, none_next, List.nil_append,
    List.nil_append, List.filter_cons_of_pos (by simp [reached, inside]),
    List.filter_cons_of_neg (by simp [succ_le_iff_lt inside]), same]

/-- In an increasing list, a range that ends before the first word behind its start is empty. -/
theorem filter_range_of_not_lt {earlier later : List UInt64} {key start stop : UInt64}
    (ordered : (earlier ++ key :: later).Pairwise (· < ·))
    (skipped : ∀ other ∈ earlier, ¬ start ≤ other) (outside : ¬ key < stop) :
    (earlier ++ key :: later).filter (fun other => start ≤ other && other < stop) = [] := by
  refine List.filter_eq_nil_iff.mpr fun other member => ?_
  rcases List.mem_append.mp member with before | behind
  · simp [skipped other before]
  · rcases List.mem_cons.mp behind with here | after
    · simp [here, outside]
    · have above := (List.pairwise_cons.mp (List.pairwise_append.mp ordered).2.1).1 other after
      have := UInt64.lt_asymm (UInt64.lt_of_le_of_lt (UInt64.not_lt.mp outside) above)
      simp [this]

/-- Walking from key to key passes through the keys of a range that it has room for. -/
theorem keysFrom_eq_filter (map : WordMap β) (stop : UInt64) (count : Nat) (start : UInt64)
    (room : (map.keys.filter fun key => start ≤ key && key < stop).length ≤ count) :
    map.keysFrom stop count start = map.keys.filter fun key => start ≤ key && key < stop := by
  induction count generalizing start with
  | zero => rw [List.eq_nil_of_length_eq_zero (Nat.le_zero.mp room), keysFrom]
  | succ count ih =>
    rw [keysFrom, ceiling?_eq_find?]
    cases found : map.entries.find? fun entry => start ≤ entry.1 with
    | none =>
      refine (List.filter_eq_nil_iff.mpr fun key member => ?_).symm
      obtain ⟨entry, listed, rfl⟩ := List.mem_map.mp member
      have missed : ¬ start ≤ entry.1 := by simpa using List.find?_eq_none.mp found entry listed
      simp [missed]
    | some entry =>
      obtain ⟨key, value⟩ := entry
      obtain ⟨reached, earlier, later, listed, below⟩ := List.find?_eq_some_iff_append.mp found
      have split : map.keys = earlier.map (·.1) ++ key :: later.map (·.1) := by
        simp [keys, listed]
      have ordered := split ▸ map.ordered_keys
      have skipped : ∀ other ∈ earlier.map (·.1), ¬ start ≤ other := fun other member => by
        obtain ⟨entry, held, rfl⟩ := List.mem_map.mp member
        simpa using below entry held
      by_cases inside : key < stop
      · have whole := filter_range_of_lt ordered skipped (by simpa using reached) inside
        rw [← split] at whole
        rw [whole, List.length_cons] at room
        simp only [inside, ↓reduceIte]
        rw [ih (key + 1) (Nat.le_of_succ_le_succ room), whole]
      · simp only [inside, ↓reduceIte]
        rw [split, filter_range_of_not_lt ordered skipped inside]

/-- **The keys of a range are the keys that lie in it.** -/
theorem keysWithin_eq_filter (map : WordMap β) (start stop : UInt64) :
    map.keysWithin start stop = map.keys.filter fun key => start ≤ key && key < stop := by
  have whole : map.keys.length = map.size := by
    rw [keys, List.length_map, length_entries]
  exact map.keysFrom_eq_filter stop map.size start
    (Nat.le_trans (List.length_filter_le _ _) (Nat.le_of_eq whole))

end WordMap

end HeapAudit
