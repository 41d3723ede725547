import HeapAudit.Data.WordMap
import Mathlib.Data.Set.Card

/-!
# Operations on different keys

Two operations of a map that concern different keys can be exchanged, and changing every
value can be exchanged with all of them.  The greatest key below a bound does not change with
keys above the bound or with the values.  The number of bindings changes with the keys alone, and
the list of bindings by the one that is made or removed.  Changing one value after the other comes
to changing all of them at once.
-/

namespace HeapAudit

set_option autoImplicit false

/-- A set has as many members as a list that names each of them once. -/
theorem ncard_eq_length {α : Type} [DecidableEq α] {list : List α} {set : Set α}
    (nodup : list.Nodup) (members : ∀ member, member ∈ list ↔ member ∈ set) :
    set.ncard = list.length := by
  have same : set = ↑list.toFinset := by
    ext member
    rw [List.coe_toFinset, Set.mem_ofPred_eq, members]
  rw [same, Set.ncard_coe_finset, List.toFinset_card_of_nodup nodup]

namespace WordMap

variable {β γ : Type} {map : WordMap β} {key other bound : UInt64} {value : β}

theorem find?_insert_self (map : WordMap β) (key : UInt64) (value : β) :
    (map.insert key value).find? key = some value := by
  rw [find?_insert, if_pos rfl]

theorem find?_insert_of_ne (value : β) (different : key ≠ other) :
    (map.insert key value).find? other = map.find? other := by
  rw [find?_insert, if_neg different]

/-! ## Exchanging operations -/

theorem modify_insert_of_ne (transform : β → β) (different : key ≠ other) :
    (map.insert key value).modify other transform
      = (map.modify other transform).insert key value := by
  refine ext_find? fun sought => ?_
  simp only [find?_modify, find?_insert]
  by_cases here : other = sought
  · subst here
    simp [different]
  · simp [here]

theorem erase_insert_of_ne (different : key ≠ other) :
    (map.insert key value).erase other = (map.erase other).insert key value := by
  refine ext_find? fun sought => ?_
  simp only [find?_erase, find?_insert]
  by_cases here : other = sought
  · subst here
    simp [different]
  · simp [here]

theorem insert_of_find? (found : map.find? key = some value) : map.insert key value = map := by
  refine ext_find? fun sought => ?_
  rw [find?_insert]
  split
  · rename_i here
    rw [← here, found]
  · rfl

theorem erase_of_find?_eq_none (absent : map.find? key = none) : map.erase key = map := by
  refine ext_find? fun sought => ?_
  rw [find?_erase]
  split
  · rename_i here
    rw [← here, absent]
  · rfl

theorem modify_of_find?_eq_none (absent : map.find? key = none) (transform : β → β) :
    map.modify key transform = map := by
  refine ext_find? fun sought => ?_
  rw [find?_modify]
  split
  · rename_i here
    rw [← here, absent, Option.map_none]
  · rfl

theorem insert_insert_self {first second : β} :
    (map.insert key first).insert key second = map.insert key second := by
  refine ext_find? fun sought => ?_
  simp only [find?_insert]
  by_cases here : key = sought <;> simp [here]

theorem insert_erase_self (map : WordMap β) (key : UInt64) (value : β) :
    (map.erase key).insert key value = map.insert key value := by
  refine ext_find? fun sought => ?_
  simp only [find?_insert, find?_erase]
  by_cases here : key = sought <;> simp [here]

theorem insert_insert_of_ne {first second : β} (different : key ≠ other) :
    (map.insert key first).insert other second = (map.insert other second).insert key first := by
  refine ext_find? fun sought => ?_
  simp only [find?_insert]
  by_cases here : other = sought
  · subst here
    simp [different]
  · simp [here]

/-- Two changes can be exchanged if they can be exchanged where they meet. -/
theorem modify_comm {first second : β → β}
    (exchange : key = other → ∀ value, second (first value) = first (second value)) :
    (map.modify key first).modify other second = (map.modify other second).modify key first := by
  refine ext_find? fun sought => ?_
  simp only [find?_modify]
  by_cases here : key = sought
  · by_cases there : other = sought
    · have both := exchange (here.trans there.symm)
      simp only [here, there, ↓reduceIte, Option.map_map]
      exact congrArg (Option.map · _) (funext both)
    · simp only [here, there, ↓reduceIte]
  · simp only [here, ↓reduceIte]

theorem mapValues_insert (map : WordMap β) (transform : UInt64 → β → γ) (key : UInt64) (value : β) :
    (map.insert key value).mapValues transform
      = (map.mapValues transform).insert key (transform key value) := by
  refine ext_find? fun sought => ?_
  simp only [find?_mapValues, find?_insert]
  by_cases here : key = sought
  · subst here
    simp
  · simp [here]

theorem mapValues_erase (map : WordMap β) (transform : UInt64 → β → γ) (key : UInt64) :
    (map.erase key).mapValues transform = (map.mapValues transform).erase key := by
  refine ext_find? fun sought => ?_
  simp only [find?_mapValues, find?_erase]
  by_cases here : key = sought <;> simp [here]

theorem mapValues_modify {transform : β → β} {image : UInt64 → β → γ} {onward : γ → γ}
    (exchange : ∀ value, image key (transform value) = onward (image key value)) :
    (map.modify key transform).mapValues image = (map.mapValues image).modify key onward := by
  refine ext_find? fun sought => ?_
  simp only [find?_mapValues, find?_modify]
  by_cases here : key = sought
  · subst here
    cases map.find? key <;> simp [exchange]
  · simp [here]

theorem mapValues_mapValues {δ : Type} (map : WordMap β) (first : UInt64 → β → γ)
    (second : UInt64 → γ → δ) :
    (map.mapValues first).mapValues second
      = map.mapValues fun key value => second key (first key value) := by
  refine ext_find? fun sought => ?_
  simp only [find?_mapValues, Option.map_map]
  rfl

/-- Only the values that are bound count. -/
theorem mapValues_congr {first second : UInt64 → β → γ}
    (agree : ∀ key value, map.find? key = some value → first key value = second key value) :
    map.mapValues first = map.mapValues second := by
  refine ext_find? fun sought => ?_
  rw [find?_mapValues, find?_mapValues]
  exact Option.map_congr (agree sought)

/-! ## The number of bindings -/

theorem size_insert (map : WordMap β) (key : UInt64) (value : β) :
    (map.insert key value).size = if map.contains key then map.size else map.size + 1 := by
  have same : map.tree.contains key = map.contains key := by
    rw [contains, find?, ← Std.ExtTreeMap.contains_eq_isSome_getElem?]
  rw [size, insert, Std.ExtTreeMap.size_insert, same]
  rfl

theorem size_modify (map : WordMap β) (key : UInt64) (transform : β → β) :
    (map.modify key transform).size = map.size :=
  Std.ExtTreeMap.size_modify

theorem size_mapValues (map : WordMap β) (transform : UInt64 → β → γ) :
    (map.mapValues transform).size = map.size :=
  Std.ExtTreeMap.size_map

/-- A binding that is removed is put back by its insertion. -/
theorem size_erase_of_find? (found : map.find? key = some value) :
    (map.erase key).size + 1 = map.size := by
  have gone : (map.erase key).contains key = false := by
    rw [contains, find?_erase, if_pos rfl, Option.isSome_none]
  have back := size_insert (map.erase key) key value
  rw [insert_erase_self, insert_of_find? found, gone] at back
  exact back.symm

/-! ## The bindings as a list -/

theorem nodup_entries (map : WordMap β) : map.entries.Nodup := by
  refine map.ordered_entries.imp ?_
  rintro first _ below rfl
  exact UInt64.lt_irrefl _ below

theorem nodup_keys (map : WordMap β) : map.keys.Nodup := by
  refine map.ordered_keys.imp ?_
  rintro first _ below rfl
  exact UInt64.lt_irrefl _ below

/-- A binding that is made is listed before or behind all others. -/
theorem entries_insert_perm (map : WordMap β) (key : UInt64) (value : β) :
    (map.insert key value).entries.Perm ((key, value) :: (map.erase key).entries) := by
  have gone : (key, value) ∉ (map.erase key).entries := by
    rw [mem_entries, find?_erase, if_pos rfl]
    exact nofun
  refine (List.perm_ext_iff_of_nodup (nodup_entries _)
    (List.nodup_cons.mpr ⟨gone, nodup_entries _⟩)).mpr fun ⟨sought, held⟩ => ?_
  rw [List.mem_cons, mem_entries, mem_entries, find?_insert, find?_erase, Prod.mk.injEq]
  by_cases here : key = sought <;> simp [here, Ne.symm, eq_comm]

/-- The values with a binding that is made. -/
theorem values_insert_perm (map : WordMap β) (key : UInt64) (value : β) :
    (map.insert key value).values.Perm (value :: (map.erase key).values) :=
  (entries_insert_perm map key value).map Prod.snd

/-- The values with a binding that is there. -/
theorem values_perm_of_find? (found : map.find? key = some value) :
    map.values.Perm (value :: (map.erase key).values) := by
  have made := values_insert_perm map key value
  rwa [insert_of_find? found] at made

theorem mem_values {map : WordMap β} {value : β} :
    value ∈ map.values ↔ ∃ key, map.find? key = some value := by
  simp [values, mem_entries]

theorem length_values (map : WordMap β) : map.values.length = map.size := by
  rw [values, List.length_map, length_entries]

theorem contains_mapValues (map : WordMap β) (transform : UInt64 → β → γ) (key : UInt64) :
    (map.mapValues transform).contains key = map.contains key := by
  rw [contains, find?_mapValues, Option.isSome_map, contains]

theorem keys_mapValues (map : WordMap β) (transform : UInt64 → β → γ) :
    (map.mapValues transform).keys = map.keys := by
  rw [keys, entries_mapValues, List.map_map]
  rfl

/-! ## One key after the other -/

theorem find?_foldl_modify (map : WordMap β) (transform : UInt64 → β → β) {order : List UInt64}
    (once : order.Nodup) (sought : UInt64) :
    (order.foldl (fun map key => map.modify key (transform key)) map).find? sought
      = if sought ∈ order then (map.find? sought).map (transform sought)
        else map.find? sought := by
  induction order generalizing map with
  | nil => rfl
  | cons first rest onward =>
    obtain ⟨fresh, once⟩ := List.nodup_cons.mp once
    rw [List.foldl_cons, onward _ once, find?_modify]
    by_cases here : first = sought
    · subst here
      simp [fresh]
    · simp [here, Ne.symm here]

/-- **Changing one value after the other**, each of them once and in any order, is changing all of
them at once. -/
theorem foldl_modify_eq_mapValues (map : WordMap β) (transform : UInt64 → β → β)
    {order : List UInt64} (visits : order.Perm map.keys) :
    order.foldl (fun map key => map.modify key (transform key)) map = map.mapValues transform := by
  refine ext_find? fun sought => ?_
  rw [find?_foldl_modify map transform (visits.nodup_iff.mpr map.nodup_keys), find?_mapValues,
    ite_eq_left_iff]
  intro missed
  have absent : map.find? sought = none := by
    rw [visits.mem_iff, mem_keys, contains] at missed
    exact Option.not_isSome_iff_eq_none.mp missed
  rw [absent, Option.map_none]

/-! ## The greatest key below a bound -/

/-- Keys above the bound do not count. -/
theorem floor?_insert_of_lt (value : β) (above : bound < key) :
    (map.insert key value).floor? bound = map.floor? bound := by
  refine Option.ext fun ⟨found, held⟩ => ?_
  rw [floor?_eq_some_iff, floor?_eq_some_iff]
  have elsewhere : ∀ {sought : UInt64}, sought ≤ bound →
      (map.insert key value).find? sought = map.find? sought := by
    intro sought below
    refine find?_insert_of_ne value ?_
    rintro rfl
    exact UInt64.lt_irrefl _ (UInt64.lt_of_lt_of_le above below)
  constructor
  · rintro ⟨present, below, greatest⟩
    refine ⟨elsewhere below ▸ present, below, fun sought bound' within => ?_⟩
    refine greatest sought ?_ within
    rwa [contains, elsewhere within]
  · rintro ⟨present, below, greatest⟩
    refine ⟨(elsewhere below).trans present, below, fun sought bound' within => ?_⟩
    refine greatest sought ?_ within
    rwa [contains, elsewhere within] at bound'

/-- The values do not count. -/
theorem floor?_mapValues (map : WordMap β) (transform : UInt64 → β → γ) (bound : UInt64) :
    (map.mapValues transform).floor? bound
      = (map.floor? bound).map fun entry => (entry.1, transform entry.1 entry.2) := by
  rw [floor?_eq_findRev?, floor?_eq_findRev?, entries_mapValues, List.findRev?_eq_find?_reverse,
    List.findRev?_eq_find?_reverse, ← List.map_reverse, List.find?_map]
  rfl

end WordMap

end HeapAudit
