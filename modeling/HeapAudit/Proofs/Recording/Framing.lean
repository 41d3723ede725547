import HeapAudit.Proofs.Event.Codec
import HeapAudit.Proofs.Recording.Store

/-!
# Records read back from their slots

A log is a list of slots, and nothing in it marks where a record starts.  The reader finds
the records again by classifying a slot, taking the next slot along if the kind asks for an
operand, and going on behind it.

Whatever the slots hold, the frames that are read lie side by side and cover all slots
(`Frame.tiles_ofSlotsFrom`), and each frame says what its slots say (`Frame.Reads`).  An
operand is missing only at the end.  The slots of calls whose first slots can be told apart
from field stores (`Call.Telling`) give back the calls, each at its place
(`Frame.framing_undoes_recording`).

Slots that do not end inside a record are read the same way whatever follows them
(`Frame.ofSlotsFrom_append`).
-/

namespace HeapAudit

set_option autoImplicit false

namespace Frame

variable {range : HeapRange} {index : Nat} {slots : List Event}

/-! ## One record at a time -/

/-- A slot whose kind needs no operand is a record of its own. -/
theorem ofSlotsFrom_cons_single {slot : Event} {kind : Kind} {event : Event}
    (classified : slot.classify range = (kind, event)) (single : kind.isPaired = false)
    (index : Nat) (rest : List Event) :
    ofSlotsFrom range index (slot :: rest)
      = ⟨kind, event, none, index⟩ :: ofSlotsFrom range (index + 1) rest := by
  cases rest with
  | nil => simp [ofSlotsFrom, classified]
  | cons next rest => simp [ofSlotsFrom, classified, single]

/-- A slot whose kind needs an operand takes the next slot along. -/
theorem ofSlotsFrom_cons_pair {slot : Event} {kind : Kind} {event : Event}
    (classified : slot.classify range = (kind, event)) (paired : kind.isPaired = true)
    (index : Nat) (next : Event) (rest : List Event) :
    ofSlotsFrom range index (slot :: next :: rest)
      = ⟨kind, event, some next.decode, index⟩ :: ofSlotsFrom range (index + 2) rest := by
  simp [ofSlotsFrom, classified, paired]

/-! ## All slots are read -/

/-- The number of slots of a frame. -/
def width (frame : Frame) : Nat := if frame.operand.isSome then 2 else 1

/-- Frames that lie side by side, from one slot up to another. -/
def Tiles : Nat → List Frame → Nat → Prop
  | start, [], stop => start = stop
  | start, frame :: rest, stop => frame.index = start ∧ Tiles (start + frame.width) rest stop

/-- **The frames lie side by side and cover all slots.** -/
theorem tiles_ofSlotsFrom (range : HeapRange) (index : Nat) (slots : List Event) :
    Tiles index (ofSlotsFrom range index slots) (index + slots.length) := by
  induction index, slots using ofSlotsFrom.induct range with
  | case1 index => simp [ofSlotsFrom, Tiles]
  | case2 index slot kind event classified => simp [ofSlotsFrom, classified, Tiles, width]
  | case3 index slot next rest kind event classified paired onward =>
    rw [ofSlotsFrom_cons_pair classified paired]
    refine ⟨rfl, ?_⟩
    simpa [width, Nat.add_assoc, Nat.add_comm 2] using onward
  | case4 index slot next rest kind event classified unpaired onward =>
    rw [ofSlotsFrom_cons_single classified (by simpa using unpaired)]
    refine ⟨rfl, ?_⟩
    simpa [width, Nat.add_assoc, Nat.add_comm 1] using onward

/-- A frame says what its slots say: it has the kind and the words of the slot at its place, and
for a kind that needs an operand the words of the next slot, if there is one. -/
structure Reads (range : HeapRange) (slots : List Event) (frame : Frame) : Prop where
  head : (slots[frame.index]?).map (Event.classify range) = some (frame.kind, frame.event)
  operand : frame.operand
    = if frame.kind.isPaired then (slots[frame.index + 1]?).map Event.decode else none

/-- Every frame of the slots behind some others says what they say. -/
theorem reads_of_mem_ofSlotsFrom {earlier : List Event} {frame : Frame}
    (member : frame ∈ ofSlotsFrom range earlier.length slots) :
    frame.Reads range (earlier ++ slots) := by
  generalize place : earlier.length = index at member
  induction index, slots using ofSlotsFrom.induct range generalizing earlier with
  | case1 index => simp [ofSlotsFrom] at member
  | case2 index slot kind event classified =>
    simp only [ofSlotsFrom, classified, List.mem_singleton] at member
    subst member place
    constructor
    · simp [classified]
    · simp
  | case3 index slot next rest kind event classified paired onward =>
    rw [ofSlotsFrom_cons_pair classified paired, List.mem_cons] at member
    rcases member with rfl | behind
    · subst place
      constructor
      · simp [classified]
      · simp [paired]
    · have later := @onward (earlier ++ [slot, next]) (by simp [place]) behind
      simpa using later
  | case4 index slot next rest kind event classified unpaired onward =>
    rw [ofSlotsFrom_cons_single classified (by simpa using unpaired), List.mem_cons] at member
    rcases member with rfl | behind
    · subst place
      constructor
      · simp [classified]
      · simp [unpaired]
    · have later := @onward (earlier ++ [slot]) (by simp [place]) behind
      simpa using later

theorem reads_of_mem_ofSlots {frame : Frame} (member : frame ∈ ofSlots range slots) :
    frame.Reads range slots :=
  @reads_of_mem_ofSlotsFrom range slots [] frame member

/-- Only the last slot lacks its operand. -/
theorem Reads.last_of_operand_eq_none {frame : Frame} (reads : frame.Reads range slots)
    (paired : frame.kind.isPaired = true) (missing : frame.operand = none) :
    frame.index + 1 = slots.length := by
  have head := reads.head
  have operand := reads.operand
  rw [missing, if_pos paired, eq_comm, Option.map_eq_none_iff, List.getElem?_eq_none_iff] at operand
  have inside : frame.index < slots.length := by
    apply Nat.lt_of_not_le
    intro outside
    rw [List.getElem?_eq_none outside] at head
    cases head
  exact Nat.le_antisymm inside operand

/-! ## Slots in front of other slots -/

/-- Slots that do not end inside a record: every frame that needs an operand has one. -/
def Whole (range : HeapRange) (slots : List Event) : Prop :=
  ∀ frame ∈ ofSlots range slots, frame.kind.isPaired = true → frame.operand ≠ none

instance (range : HeapRange) (slots : List Event) : Decidable (Whole range slots) :=
  inferInstanceAs (Decidable (∀ frame ∈ ofSlots range slots, _ → _))

theorem ofSlotsFrom_append
    (whole : ∀ frame ∈ ofSlotsFrom range index slots,
      frame.kind.isPaired = true → frame.operand ≠ none) (rest : List Event) :
    ofSlotsFrom range index (slots ++ rest)
      = ofSlotsFrom range index slots ++ ofSlotsFrom range (index + slots.length) rest := by
  induction index, slots using ofSlotsFrom.induct range with
  | case1 index => simp [ofSlotsFrom]
  | case2 index slot kind event classified =>
    have single : kind.isPaired = false := by
      rw [Bool.eq_false_iff]
      intro paired
      exact whole ⟨kind, event, none, index⟩ (by simp [ofSlotsFrom, classified]) paired rfl
    rw [ofSlotsFrom_cons_single classified single, List.singleton_append,
      ofSlotsFrom_cons_single classified single]
    rfl
  | case3 index slot next slots kind event classified paired onward =>
    rw [ofSlotsFrom_cons_pair classified paired] at whole ⊢
    have behind := onward fun frame member => whole frame (List.mem_cons_of_mem _ member)
    rw [List.cons_append, List.cons_append, ofSlotsFrom_cons_pair classified paired, behind]
    simp [Nat.add_assoc, Nat.add_comm 2]
  | case4 index slot next slots kind event classified unpaired onward =>
    have single : kind.isPaired = false := by simpa using unpaired
    rw [ofSlotsFrom_cons_single classified single] at whole ⊢
    have behind := onward fun frame member => whole frame (List.mem_cons_of_mem _ member)
    rw [List.cons_append, ofSlotsFrom_cons_single classified single, behind]
    simp [Nat.add_assoc, Nat.add_comm 1]

/-- Apart from their places, frames do not depend on where their slots start. -/
theorem unplaced_ofSlotsFrom_start (range : HeapRange) (index other : Nat) (slots : List Event) :
    (ofSlotsFrom range index slots).map unplaced = (ofSlotsFrom range other slots).map unplaced := by
  induction index, slots using ofSlotsFrom.induct range generalizing other with
  | case1 index => rfl
  | case2 index slot kind event classified => simp [ofSlotsFrom, classified, unplaced]
  | case3 index slot next rest kind event classified paired onward =>
    rw [ofSlotsFrom_cons_pair classified paired, ofSlotsFrom_cons_pair classified paired,
      List.map_cons, List.map_cons, onward (other + 2)]
    rfl
  | case4 index slot next rest kind event classified unpaired onward =>
    have single : kind.isPaired = false := by simpa using unpaired
    rw [ofSlotsFrom_cons_single classified single, ofSlotsFrom_cons_single classified single,
      List.map_cons, List.map_cons, onward (other + 1)]
    rfl

/-- **Slots that do not end inside a record are read apart from those behind them.** -/
theorem unplaced_ofSlots_append (whole : Whole range slots) (rest : List Event) :
    (ofSlots range (slots ++ rest)).map unplaced
      = (ofSlots range slots).map unplaced ++ (ofSlots range rest).map unplaced := by
  rw [ofSlots, ofSlotsFrom_append whole, List.map_append, ofSlots, ofSlots,
    unplaced_ofSlotsFrom_start range (0 + slots.length) 0]

end Frame

/-! ## The slots of calls -/

/-- An event whose slot is read as what it is: a field store looks like one, and any other event
fits into its slot and does not look like a field store. -/
def Event.Telling (range : HeapRange) (kind : Kind) (event : Event) : Prop :=
  if kind = .fieldSet then event.isRawFieldSet range = true
  else kind.code.toNat < 2 ^ 15 ∧ event.dst.toNat < 2 ^ 49
    ∧ (event.encode kind).isRawFieldSet range = false

instance (range : HeapRange) (kind : Kind) (event : Event) : Decidable (event.Telling range kind) :=
  inferInstanceAs (Decidable (if kind = .fieldSet then _ else _))

/-- A telling event is read back from its slot. -/
theorem Event.Telling.classify {range : HeapRange} {kind : Kind} {event : Event}
    (telling : event.Telling range kind) : (event.encode kind).classify range = (kind, event) := by
  rw [Telling] at telling
  split at telling
  · rename_i store
    subst store
    rw [encode, if_pos rfl, Event.classify, telling, if_pos rfl]
  · rename_i other
    obtain ⟨tag, address, apart⟩ := telling
    exact classify_encode_of_not_raw other tag address apart

namespace Call

/-- The slots of a call. -/
def slots (call : Call) : List Event := call.encoded.slots

/-- A call with an operand exactly if its kind needs one, whose first slot is telling and whose
operand fits into its slot. -/
def Telling (range : HeapRange) : Call → Prop
  | record kind event => kind.isPaired = false ∧ event.Telling range kind
  | recordPair kind event operandKind operand =>
    kind.isPaired = true ∧ event.Telling range kind
      ∧ operandKind ≠ .fieldSet ∧ operandKind.code.toNat < 2 ^ 15 ∧ operand.dst.toNat < 2 ^ 49

instance (range : HeapRange) : (call : Call) → Decidable (call.Telling range)
  | record _ _ => inferInstanceAs (Decidable (_ ∧ _))
  | recordPair _ _ _ _ => inferInstanceAs (Decidable (_ ∧ _))

/-- The frame of a call behind a number of slots. -/
def frame (index : Nat) : Call → Frame
  | record kind event => ⟨kind, event, none, index⟩
  | recordPair kind event _ operand => ⟨kind, event, some operand, index⟩

/-- The slots of a telling call, in front of any others, are read as the call. -/
theorem Telling.ofSlotsFrom {range : HeapRange} {call : Call} (telling : call.Telling range)
    (index : Nat) (rest : List Event) :
    Frame.ofSlotsFrom range index (call.slots ++ rest)
      = call.frame index :: Frame.ofSlotsFrom range (index + call.slots.length) rest := by
  cases call with
  | record kind event =>
    obtain ⟨single, telling⟩ := telling
    exact Frame.ofSlotsFrom_cons_single telling.classify single index rest
  | recordPair kind event operandKind operand =>
    obtain ⟨paired, telling, other, tag, address⟩ := telling
    have decoded : (operand.encode operandKind).decode = operand := by
      rw [Event.encode, if_neg other]
      exact Event.decode_packed tag address
    have read := Frame.ofSlotsFrom_cons_pair telling.classify paired index
      (operand.encode operandKind) rest
    rw [decoded] at read
    exact read

end Call

namespace Frame

theorem ofSlotsFrom_calls {range : HeapRange} {calls : List Call}
    (telling : ∀ call ∈ calls, call.Telling range) (index : Nat) :
    ofSlotsFrom range index (calls.flatMap Call.slots)
      = calls.mapIdx fun position call =>
        call.frame (index + ((calls.take position).flatMap Call.slots).length) := by
  induction calls generalizing index with
  | nil => rfl
  | cons call rest onward =>
    have behind := onward (fun other member => telling other (List.mem_cons_of_mem _ member))
      (index + call.slots.length)
    rw [List.flatMap_cons, (telling call List.mem_cons_self).ofSlotsFrom, behind, List.mapIdx_cons]
    simp [Nat.add_assoc]

/-- **Reading frames undoes recording.**  The slots of telling calls give one frame for each call, in
order, with its kind, its words and its operand, and with the number of slots in front of it as its
place.  The frames of any slots lie side by side from the first slot to the end, each says what its
slots say, and one that lacks its operand is the last slot. -/
theorem framing_undoes_recording (range : HeapRange) :
    (∀ calls : List Call, (∀ call ∈ calls, call.Telling range) →
      ofSlots range (calls.flatMap Call.slots)
        = calls.mapIdx fun position call =>
          call.frame ((calls.take position).flatMap Call.slots).length)
    ∧ ∀ slots : List Event,
      Tiles 0 (ofSlots range slots) slots.length
      ∧ ∀ frame ∈ ofSlots range slots, frame.Reads range slots
        ∧ (frame.kind.isPaired = true → frame.operand = none →
          frame.index + 1 = slots.length) := by
  refine ⟨?_, ?_⟩
  · intro calls telling
    have read := ofSlotsFrom_calls telling 0
    simp only [Nat.zero_add] at read
    exact read
  · intro slots
    refine ⟨?_, ?_⟩
    · have tiles := tiles_ofSlotsFrom range 0 slots
      rw [Nat.zero_add] at tiles
      exact tiles
    · intro frame member
      have reads := reads_of_mem_ofSlots member
      exact ⟨reads, reads.last_of_operand_eq_none⟩

/-- An allocation, a store to the new object, and a copy of three elements between two arrays. -/
def threeCalls : List Call :=
  [.record .newObject ⟨2, 0x10000100⟩, .record .fieldSet ⟨0x10000100, 0x10000108⟩,
    .recordPair .copyArray ⟨0x10000210, 0x10000310⟩ .copyArrayLength ⟨3, 0⟩]

/-- Three calls take four slots and are read back as three frames.  Without its last slot the copy is
read without its operand. -/
theorem framing_undoes_recording_three :
    (∀ call ∈ threeCalls, call.Telling ⟨0x10000000, 0x20000000⟩)
      ∧ ofSlots ⟨0x10000000, 0x20000000⟩ (threeCalls.flatMap Call.slots)
        = [⟨.newObject, ⟨2, 0x10000100⟩, none, 0⟩,
          ⟨.fieldSet, ⟨0x10000100, 0x10000108⟩, none, 1⟩,
          ⟨.copyArray, ⟨0x10000210, 0x10000310⟩, some ⟨3, 0⟩, 2⟩]
      ∧ Tiles 0 [⟨.newObject, ⟨2, 0x10000100⟩, none, 0⟩,
          ⟨.fieldSet, ⟨0x10000100, 0x10000108⟩, none, 1⟩,
          ⟨.copyArray, ⟨0x10000210, 0x10000310⟩, none, 2⟩] 3 := by
  have telling : ∀ call ∈ threeCalls, call.Telling ⟨0x10000000, 0x20000000⟩ := by decide
  obtain ⟨readBack, covering⟩ := framing_undoes_recording ⟨0x10000000, 0x20000000⟩
  refine ⟨telling, ?_, ?_⟩
  · rw [readBack threeCalls telling]
    decide
  · have tiles := (covering ((threeCalls.flatMap Call.slots).take 3)).1
    have cut : ofSlots ⟨0x10000000, 0x20000000⟩ ((threeCalls.flatMap Call.slots).take 3)
        = [⟨.newObject, ⟨2, 0x10000100⟩, none, 0⟩,
          ⟨.fieldSet, ⟨0x10000100, 0x10000108⟩, none, 1⟩,
          ⟨.copyArray, ⟨0x10000210, 0x10000310⟩, none, 2⟩] := by decide
    rw [cut] at tiles
    exact tiles

end Frame

end HeapAudit
