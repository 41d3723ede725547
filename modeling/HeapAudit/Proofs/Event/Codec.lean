import HeapAudit.Event.Frame
import HeapAudit.Proofs.Foundations

/-!
# Reading back what was stored

A stored event does not say whether it is a field store; the reader goes by its packed
destination.  On a range that starts high enough (`HeapRange.Legible`), shifting an address
of the heap by the bits of the tag leads out of the heap, so that no other event is taken
for a field store, and everything stored with an address of the heap is read back as it was
(`Event.classify_encode`).

In general an event is read back exactly if its kind and its destination fit side by side into
one word and the word does not pass for a field store of the heap; a field store is read back
exactly if it does pass for one (`Event.classify_encode_eq_iff`).  The other way round, a slot with
a tag is what its kind and its words are stored as (`Event.encode_decode`).

Records of one slot are read independently of each other.  A list of them gives one frame
for each slot, however it is cut into segments (`Frame.unplaced_ofSlots`).
-/

namespace HeapAudit

set_option autoImplicit false

/-! ## Stored events -/

/-- A range whose addresses leave the range, but not the words, when they are shifted by the bits
of the tag. -/
structure HeapRange.Legible (range : HeapRange) : Prop where
  ordered : range.low.toNat ≤ range.high.toNat
  bounded : range.high.toNat ≤ 2 ^ 49
  spread : range.high.toNat ≤ range.low.toNat * 2 ^ 15

namespace HeapRange

theorem contains_iff {range : HeapRange} {address : UInt64} :
    range.contains address = true
      ↔ range.low.toNat ≤ address.toNat ∧ address.toNat < range.high.toNat := by
  rw [contains, Bool.and_eq_true, decide_eq_true_eq, decide_eq_true_eq, UInt64.le_iff_toNat_le,
    UInt64.lt_iff_toNat_lt]

end HeapRange

namespace Event

/-- What is shifted up by the bits of the tag leaves them free, and its highest bits are lost. -/
theorem toNat_shifted (dst : UInt64) :
    (dst <<< tagBits).toNat = (dst.toNat % 2 ^ 49) * 2 ^ 15 := by
  have bits : tagBits.toNat % 64 = 15 := rfl
  rw [UInt64.toNat_shiftLeft, bits, Nat.shiftLeft_eq]
  omega

/-- The packed destination keeps the address above the tag. -/
theorem toNat_packed {code dst : UInt64} (tag : code.toNat < 2 ^ 15) (address : dst.toNat < 2 ^ 49) :
    (code ||| (dst <<< tagBits)).toNat = dst.toNat * 2 ^ 15 + code.toNat := by
  rw [UInt64.toNat_or, toNat_shifted, Nat.mod_eq_of_lt address, Nat.or_comm, ← Nat.shiftLeft_eq,
    ← Nat.shiftLeft_add_eq_or_of_lt tag]

/-- Of the code of a packed event the bits of the tag are read. -/
theorem toNat_kindCode_packed (src dst code : UInt64) :
    (kindCode ⟨src, code ||| (dst <<< tagBits)⟩).toNat = code.toNat % 2 ^ 15 := by
  have mask : tagMask.toNat = 2 ^ 15 - 1 := rfl
  rw [kindCode, UInt64.toNat_and, mask, Nat.and_two_pow_sub_one_eq_mod, UInt64.toNat_or,
    Nat.or_mod_two_pow, toNat_shifted, Nat.mul_mod_left, Nat.or_zero]

/-- Of the destination of a packed event the bits are read that were not lost. -/
theorem toNat_dst_decode_packed (src dst : UInt64) {code : UInt64} (tag : code.toNat < 2 ^ 15) :
    (decode ⟨src, code ||| (dst <<< tagBits)⟩).dst.toNat = dst.toNat % 2 ^ 49 := by
  have bits : tagBits.toNat % 64 = 15 := rfl
  rw [decode, UInt64.toNat_shiftRight, bits, UInt64.toNat_or, Nat.shiftRight_or_distrib,
    toNat_shifted, Nat.shiftRight_eq_div_pow, Nat.shiftRight_eq_div_pow, Nat.div_eq_of_lt tag,
    Nat.mul_div_cancel _ (Nat.two_pow_pos 15), Nat.zero_or]

/-- The kind of a packed event is read back. -/
theorem kindCode_packed {src dst code : UInt64} (tag : code.toNat < 2 ^ 15) :
    kindCode ⟨src, code ||| (dst <<< tagBits)⟩ = code := by
  apply UInt64.toNat.inj
  rw [toNat_kindCode_packed, Nat.mod_eq_of_lt tag]

/-- The words of a packed event are read back. -/
theorem decode_packed {src dst code : UInt64} (tag : code.toNat < 2 ^ 15)
    (address : dst.toNat < 2 ^ 49) : decode ⟨src, code ||| (dst <<< tagBits)⟩ = ⟨src, dst⟩ := by
  have back : (decode ⟨src, code ||| (dst <<< tagBits)⟩).dst = dst := by
    apply UInt64.toNat.inj
    rw [toNat_dst_decode_packed src dst tag, Nat.mod_eq_of_lt address]
  exact congrArg (Event.mk src) back

/-- An event that fits into its slot and does not look like a field store there is read back. -/
theorem classify_encode_of_not_raw {range : HeapRange} {kind : Kind} {event : Event}
    (other : kind ≠ .fieldSet) (tag : kind.code.toNat < 2 ^ 15) (address : event.dst.toNat < 2 ^ 49)
    (apart : (event.encode kind).isRawFieldSet range = false) :
    (event.encode kind).classify range = (kind, event) := by
  rw [classify, apart, encode, if_neg other]
  simp only [Bool.false_eq_true, ↓reduceIte]
  rw [kindCode_packed tag, decode_packed tag address, Kind.ofCode_code]

/-- **An event with an address of the heap is read back as it was stored.** -/
theorem classify_encode {range : HeapRange} (legible : range.Legible) {kind : Kind} {event : Event}
    (other : kind ≠ .fieldSet) (tag : kind.code.toNat < 2 ^ 15)
    (inside : range.contains event.dst = true) :
    (event.encode kind).classify range = (kind, event) := by
  obtain ⟨above, below⟩ := HeapRange.contains_iff.mp inside
  have address : event.dst.toNat < 2 ^ 49 := Nat.lt_of_lt_of_le below legible.bounded
  have outside : range.contains (kind.code ||| (event.dst <<< tagBits)) = false := by
    rw [Bool.eq_false_iff]
    intro confused
    obtain ⟨-, low⟩ := HeapRange.contains_iff.mp confused
    rw [toNat_packed tag address] at low
    have spread := legible.spread
    omega
  have apart : (event.encode kind).isRawFieldSet range = false := by
    simp [encode, other, isRawFieldSet, outside]
  exact classify_encode_of_not_raw other tag address apart

/-- A store of null or of an address of the heap is read back as it was stored. -/
theorem classify_fieldSet {range : HeapRange} {event : Event}
    (inside : range.contains event.dst = true)
    (value : event.src = 0 ∨ range.contains event.src = true) :
    (event.encode .fieldSet).classify range = (.fieldSet, event) := by
  have raw : event.isRawFieldSet range = true := by
    rw [isRawFieldSet, inside]
    simpa using value
  rw [encode, if_pos rfl, classify, raw, if_pos rfl]

/-! ## Exactly what is read back -/

/-- A stored event other than a field store is read back exactly if it fits into its slot and does
not look like a field store there. -/
theorem classify_encode_eq_iff_of_ne {range : HeapRange} {kind : Kind} {event : Event}
    (other : kind ≠ .fieldSet) :
    (event.encode kind).classify range = (kind, event)
      ↔ kind.code.toNat < 2 ^ 15 ∧ event.dst.toNat < 2 ^ 49
        ∧ (event.encode kind).isRawFieldSet range = false := by
  constructor
  · intro returned
    cases raw : (event.encode kind).isRawFieldSet range with
    | true =>
      rw [classify, raw, if_pos rfl] at returned
      exact absurd (congrArg Prod.fst returned).symm other
    | false =>
      rw [classify, raw, encode, if_neg other] at returned
      simp only [Bool.false_eq_true, ↓reduceIte, Prod.mk.injEq] at returned
      obtain ⟨sameKind, sameEvent⟩ := returned
      have code : kind.code.toNat % 2 ^ 15 = kind.code.toNat := by
        rw [← toNat_kindCode_packed event.src event.dst, ← Kind.code_ofCode (kindCode _), sameKind]
      have tag : kind.code.toNat < 2 ^ 15 := by omega
      have dst : event.dst.toNat % 2 ^ 49 = event.dst.toNat := by
        rw [← toNat_dst_decode_packed event.src event.dst tag, sameEvent]
      exact ⟨tag, by omega, rfl⟩
  · rintro ⟨tag, address, apart⟩
    exact classify_encode_of_not_raw other tag address apart

/-- A field store is read back exactly if it looks like one or goes to address zero. -/
theorem classify_fieldSet_eq_iff {range : HeapRange} {event : Event} :
    (event.encode .fieldSet).classify range = (.fieldSet, event)
      ↔ event.isRawFieldSet range = true ∨ event.dst = 0 := by
  rw [encode, if_pos rfl, classify]
  cases raw : event.isRawFieldSet range with
  | true => simp
  | false =>
    simp only [Bool.false_eq_true, ↓reduceIte, Prod.mk.injEq, false_or]
    constructor
    · rintro ⟨-, same⟩
      -- a destination that is its own upper part is zero
      have upper := congrArg (fun event => event.dst.toNat) same
      rw [decode, UInt64.toNat_shiftRight] at upper
      have bits : tagBits.toNat % 64 = 15 := rfl
      rw [bits, Nat.shiftRight_eq_div_pow] at upper
      apply UInt64.toNat.inj
      rw [UInt64.toNat_zero]
      omega
    · intro null
      have none : (0 : UInt64) >>> tagBits = 0 := by decide
      refine ⟨?_, ?_⟩
      · rw [kindCode, null, UInt64.zero_and]
        rfl
      · rw [decode, null, none, ← null]

/-- **Exactly which events are read back as they were stored.** -/
theorem classify_encode_eq_iff (range : HeapRange) (kind : Kind) (event : Event) :
    (event.encode kind).classify range = (kind, event)
      ↔ kind = .fieldSet ∧ (event.isRawFieldSet range = true ∨ event.dst = 0)
        ∨ kind ≠ .fieldSet ∧ kind.code.toNat < 2 ^ 15 ∧ event.dst.toNat < 2 ^ 49
          ∧ (event.encode kind).isRawFieldSet range = false := by
  by_cases store : kind = .fieldSet
  · subst store
    simp [classify_fieldSet_eq_iff]
  · simp [classify_encode_eq_iff_of_ne store, store]

/-- **A slot with a tag is what its kind and its words are stored as.** -/
theorem encode_decode {slot : Event} (tagged : slot.kindCode ≠ 0) :
    slot.decode.encode (.ofCode slot.kindCode) = slot := by
  have other : Kind.ofCode slot.kindCode ≠ .fieldSet := by
    intro store
    have code := Kind.code_ofCode slot.kindCode
    rw [store] at code
    exact tagged code.symm
  have bits : tagBits.toNat % 64 = 15 := rfl
  have mask : tagMask.toNat = 2 ^ 15 - 1 := rfl
  have lower : slot.kindCode.toNat = slot.dst.toNat % 2 ^ 15 := by
    rw [kindCode, UInt64.toNat_and, mask, Nat.and_two_pow_sub_one_eq_mod]
  have upper : slot.decode.dst.toNat = slot.dst.toNat / 2 ^ 15 := by
    rw [decode, UInt64.toNat_shiftRight, bits, Nat.shiftRight_eq_div_pow]
  have bound := slot.dst.toNat_lt
  have joined : slot.kindCode ||| (slot.decode.dst <<< tagBits) = slot.dst := by
    apply UInt64.toNat.inj
    rw [toNat_packed (by omega) (by omega), upper, lower]
    omega
  rw [encode, if_neg other, Kind.code_ofCode, joined]
  rfl

/-- **Storing and reading are inverse to each other up to what looks like a field store.**  An event
is read back as it was stored if and only if it is a field store that looks like one or goes to
address zero, or an event of another kind that fits into its slot and does not look like a field
store there.  Every slot with a tag is stored again as it is.  On a range whose addresses leave it
when they are shifted, all events to the heap with a tag are read back, whatever their source.
Every word is the code of one kind (`Kind.code_ofCode`). -/
theorem reading_undoes_storing (range : HeapRange) :
    (∀ (kind : Kind) (event : Event), (event.encode kind).classify range = (kind, event)
      ↔ kind = .fieldSet ∧ (event.isRawFieldSet range = true ∨ event.dst = 0)
        ∨ kind ≠ .fieldSet ∧ kind.code.toNat < 2 ^ 15 ∧ event.dst.toNat < 2 ^ 49
          ∧ (event.encode kind).isRawFieldSet range = false)
    ∧ (∀ slot : Event, slot.dst &&& 0x7fff ≠ 0 →
      slot.decode.encode (.ofCode slot.kindCode) = slot)
    ∧ (range.high.toNat ≤ range.low.toNat * 2 ^ 15 → range.high.toNat ≤ 2 ^ 49 →
      ∀ (kind : Kind) (event : Event), kind.code ≠ 0 → kind.code.toNat < 2 ^ 15 →
        range.low ≤ event.dst → event.dst < range.high →
        (event.encode kind).classify range = (kind, event)) := by
  refine ⟨classify_encode_eq_iff range, fun slot tagged => encode_decode tagged, ?_⟩
  intro spread bounded kind event other tag above below
  have inside : range.contains event.dst = true := by
    rw [HeapRange.contains, decide_eq_true above, decide_eq_true below]
    rfl
  have ordered : range.low.toNat ≤ range.high.toNat := by
    obtain ⟨above, below⟩ := HeapRange.contains_iff.mp inside
    omega
  refine classify_encode ⟨ordered, bounded, spread⟩ ?_ tag inside
  rintro rfl
  exact other rfl

/-- Three events and the heap from `0x10000000` on: an array of five elements in the heap, a slot
with the tag of a move, and a field store to `0x8000`, outside of the heap, which is taken for a
field store to `1`. -/
theorem reading_undoes_storing_tagged :
    (Event.encode .newArray ⟨5, 0x10000100⟩).classify ⟨0x10000000, 0x20000000⟩
      = (.newArray, ⟨5, 0x10000100⟩)
    ∧ Event.encode (.ofCode (kindCode ⟨7, 0x8008⟩)) (decode ⟨7, 0x8008⟩) = ⟨7, 0x8008⟩
    ∧ (Event.encode .fieldSet ⟨0, 0x8000⟩).classify ⟨0x10000000, 0x20000000⟩
      ≠ (.fieldSet, ⟨0, 0x8000⟩) := by
  obtain ⟨readBack, again, inHeap⟩ := reading_undoes_storing ⟨0x10000000, 0x20000000⟩
  refine ⟨?_, again _ (by decide), ?_⟩
  · exact inHeap (by decide) (by decide) _ _ (by decide) (by decide) (by decide) (by decide)
  · rw [Ne, readBack]
    decide

end Event

/-! ## Frames of single slots -/

namespace Frame

/-- The frame without its place in the log. -/
def unplaced (frame : Frame) : Frame := { frame with index := 0 }

/-- The frame of a record of one slot. -/
def ofSlot (range : HeapRange) (slot : Event) : Frame :=
  ⟨(slot.classify range).1, (slot.classify range).2, none, 0⟩

theorem unplaced_ofSlotsFrom {range : HeapRange} {index : Nat} {slots : List Event}
    (single : ∀ slot ∈ slots, (slot.classify range).1.isPaired = false) :
    (ofSlotsFrom range index slots).map unplaced = slots.map (ofSlot range) := by
  induction index, slots using ofSlotsFrom.induct range with
  | case1 index => rfl
  | case2 index slot kind event classified =>
    simp [ofSlotsFrom, unplaced, ofSlot, classified]
  | case3 index slot next rest kind event classified paired onward =>
    have unpaired := single slot List.mem_cons_self
    rw [classified, paired] at unpaired
    cases unpaired
  | case4 index slot next rest kind event classified unpaired onward =>
    have behind := onward fun other member => single other (List.mem_cons_of_mem _ member)
    have here : ofSlot range slot = ⟨kind, event, none, 0⟩ := by rw [ofSlot, classified]
    rw [ofSlotsFrom, classified]
    simp only [unpaired, Bool.false_eq_true, ↓reduceIte]
    rw [List.map_cons, behind, @List.map_cons _ _ _ slot, here]
    rfl

/-- If no record has an operand, no slot asks for one. -/
theorem single_of_ofSlotsFrom {range : HeapRange} {index : Nat} {slots : List Event}
    (single : ∀ frame ∈ ofSlotsFrom range index slots, frame.kind.isPaired = false) :
    ∀ slot ∈ slots, (slot.classify range).1.isPaired = false := by
  induction index, slots using ofSlotsFrom.induct range with
  | case1 index =>
    intro slot member
    cases member
  | case2 index slot kind event classified =>
    rw [ofSlotsFrom, classified] at single
    intro other member
    rw [List.mem_singleton.mp member, classified]
    exact single _ List.mem_cons_self
  | case3 index slot next rest kind event classified paired onward =>
    rw [ofSlotsFrom, classified] at single
    simp only [paired, ↓reduceIte] at single
    have unpaired := single _ List.mem_cons_self
    rw [paired] at unpaired
    cases unpaired
  | case4 index slot next rest kind event classified unpaired onward =>
    rw [ofSlotsFrom, classified] at single
    simp only [unpaired, Bool.false_eq_true, ↓reduceIte] at single
    intro other member
    rcases List.mem_cons.mp member with rfl | later
    · rw [classified]
      exact single _ List.mem_cons_self
    · exact onward (fun frame listed => single frame (List.mem_cons_of_mem _ listed)) other later

/-- **Records of one slot are read one by one.** -/
theorem unplaced_ofSlots {range : HeapRange} {segments : List (List Event)}
    (single : ∀ slot ∈ segments.flatten, (slot.classify range).1.isPaired = false) :
    (segments.flatMap (ofSlots range)).map unplaced = segments.flatten.map (ofSlot range) := by
  induction segments with
  | nil => rfl
  | cons segment rest onward =>
    have here := @unplaced_ofSlotsFrom range 0 segment fun slot member =>
      single slot (List.mem_append_left _ member)
    have behind := onward fun slot member => single slot (List.mem_append_right _ member)
    rw [List.flatMap_cons, List.map_append, behind, ofSlots, here, List.flatten_cons,
      List.map_append]

end Frame

end HeapAudit
