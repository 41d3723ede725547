import HeapAudit.Proofs.Log.Layout

/-!
# The content of a log

What a log holds is read off its memory: the slots that the counters of its halves
count.  This module says what every operation does to that content.

The statements hold for sound logs (`Log.Sound`): the layout is that of a created log,
exactly the active half can be written, and no counter exceeds the capacity.  Every
operation keeps a log sound.  An append that fits adds its slots behind those of the
active half; one that does not fit faults at the guard page behind it and leaves the
content as it was, even if the first slot of a pair was still written.
-/

namespace HeapAudit

set_option autoImplicit false

/-! ## Halves -/

namespace Half

@[simp] theorem length_take (half : Half) (count : Nat) : (half.take count).length = count := by
  simp [take]

theorem take_succ (half : Half) (count : Nat) :
    half.take (count + 1) = half.take count ++ [half.read count.toUInt64] := by
  simp only [take, List.range_succ, List.map_append, List.map_cons, List.map_nil]

/-- A slot at or behind the end of a run is not part of it. -/
theorem take_write_of_le (half : Half) {slot : UInt64} (event : Event) {count : Nat}
    (behind : count ≤ slot.toNat) : (half.write slot event).take count = half.take count := by
  refine List.map_congr_left fun index inside => ?_
  have below := List.mem_range.mp inside
  have bound := slot.toNat_lt
  have elsewhere : slot ≠ index.toUInt64 := by
    intro same
    have := toNat_toUInt64_of_lt (show index < 18446744073709551616 by omega)
    rw [← same] at this
    omega
  rw [read_write, if_neg elsewhere]

/-- Writing the slot at the end of a run makes the run longer by one event. -/
theorem take_write_succ (half : Half) (slot : UInt64) (event : Event) :
    (half.write slot event).take (slot.toNat + 1) = half.take slot.toNat ++ [event] := by
  have same : slot.toNat.toUInt64 = slot := by
    rw [Nat.toUInt64_eq, UInt64.ofNat_toNat]
  rw [take_succ, take_write_of_le half event (Nat.le_refl _), read_write, same, if_pos rfl]

/-- A slot behind the counted ones is no event. -/
theorem events_write (half : Half) (event : Event) :
    (half.write half.count event).events = half.events :=
  half.take_write_of_le event (Nat.le_refl _)

/-- The memory after an event is stored behind the counted ones and counted. -/
def push (half : Half) (event : Event) : Half :=
  { half.write half.count event with count := half.count + 1 }

theorem toNat_count_push (half : Half) (event : Event)
    (small : half.count.toNat + 1 < 18446744073709551616) :
    (half.push event).count.toNat = half.count.toNat + 1 :=
  toNat_add_of_lt small

theorem events_push (half : Half) (event : Event)
    (small : half.count.toNat + 1 < 18446744073709551616) :
    (half.push event).events = half.events ++ [event] := by
  rw [events, half.toNat_count_push event small]
  exact half.take_write_succ half.count event

theorem events_of_count_eq_zero {half : Half} (empty : half.count = 0) : half.events = [] := by
  rw [events, empty]
  rfl

end Half

@[simp] theorem Side.other_other (side : Side) : side.other.other = side := by
  cases side <;> rfl

namespace Log

/-! ## Replacing the memory of a half -/

section SetHalf

variable (log : Log) (side : Side) (half : Half)

@[simp] theorem base_setHalf : (log.setHalf side half).base = log.base := by
  cases side <;> rfl

@[simp] theorem halfBytes_setHalf : (log.setHalf side half).halfBytes = log.halfBytes := by
  cases side <;> rfl

@[simp] theorem capacity_setHalf : (log.setHalf side half).capacity = log.capacity := by
  cases side <;> rfl

@[simp] theorem protection_setHalf : (log.setHalf side half).protection = log.protection := by
  cases side <;> rfl

@[simp] theorem active_setHalf : (log.setHalf side half).active = log.active := by
  cases side <;> rfl

@[simp] theorem isSealed_setHalf : (log.setHalf side half).isSealed = log.isSealed := by
  cases side <;> rfl

@[simp] theorem isClosed_setHalf : (log.setHalf side half).isClosed = log.isClosed := by
  cases side <;> rfl

@[simp] theorem guardAddress_setHalf : (log.setHalf side half).guardAddress = log.guardAddress := by
  cases side <;> rfl

@[simp] theorem half_setHalf_self : (log.setHalf side half).half side = half := by
  cases side <;> rfl

@[simp] theorem half_setHalf_other :
    (log.setHalf side half).half side.other = log.half side.other := by
  cases side <;> rfl

@[simp] theorem setHalf_setHalf (later : Half) :
    (log.setHalf side half).setHalf side later = log.setHalf side later := by
  cases side <;> rfl

@[simp] theorem setHalf_half : log.setHalf side (log.half side) = log := by
  cases side <;> rfl

end SetHalf

/-! ## Sound logs -/

/-- A log as its operations leave it. -/
structure Sound (log : Log) : Prop where
  spacious : Spacious log.halfBytes
  guarded : Guards log.halfBytes log.active log.protection
  counted : ∀ side, (log.half side).count.toNat ≤ log.capacity.toNat

namespace Sound

variable {log : Log}

theorem toNat_capacity_lt (sound : log.Sound) : log.capacity.toNat < 9223372036854775808 := by
  have filled := sound.spacious.toNat_slotsIn_succ
  have bounded := sound.spacious.bounded
  simp only [capacity]
  omega

theorem le_toNat_capacity (sound : log.Sound) : 255 ≤ log.capacity.toNat :=
  sound.spacious.le_toNat_slotsIn

theorem setHalf (sound : log.Sound) (side : Side) (half : Half)
    (counted : half.count.toNat ≤ log.capacity.toNat) : (log.setHalf side half).Sound where
  spacious := by simpa using sound.spacious
  guarded := by simpa using sound.guarded
  counted := by
    intro sought
    rw [capacity_setHalf]
    by_cases here : sought = side
    · subst here
      rwa [half_setHalf_self]
    · have opposite : sought = side.other := by cases sought <;> cases side <;> simp_all [Side.other]
      subst opposite
      rw [half_setHalf_other]
      exact sound.counted side.other

/-- Soundness is about sizes, protection, counters and the active half, and nothing else. -/
theorem congr {other : Log} (sound : log.Sound) (halfBytes : other.halfBytes = log.halfBytes)
    (protection : other.protection = log.protection) (active : other.active = log.active)
    (half : ∀ side, other.half side = log.half side) : other.Sound where
  spacious := halfBytes ▸ sound.spacious
  guarded := by
    rw [halfBytes, protection, active]
    exact sound.guarded
  counted := by
    intro side
    rw [half, capacity, halfBytes]
    exact sound.counted side

theorem close (sound : log.Sound) : log.close.Sound :=
  sound.congr rfl rfl rfl fun side => by cases side <;> rfl

/-- A created log is sound. -/
theorem of_create {base room requested : UInt64} (created : create base room requested = .ok log) :
    log.Sound := by
  obtain ⟨protection, rfl, spacious, guarded, -⟩ := create_eq_ok created
  exact ⟨spacious, guarded, fun side => by cases side <;> exact Nat.zero_le _⟩

/-- A clone of a sound log is sound. -/
theorem of_clone {copy : Log} {base room : UInt64} (sound : log.Sound)
    (cloned : log.clone base room = .ok copy) : copy.Sound := by
  obtain ⟨protection, rfl, guarded, -⟩ := clone_eq_ok sound.spacious cloned
  refine ⟨sound.spacious, guarded, fun side => ?_⟩
  cases side with
  | first => exact sound.counted .first
  | second => exact sound.counted .second

end Sound

/-! ## Stores -/

/-- A slot of the active half takes what is stored there. -/
theorem store_of_le {log : Log} (sound : log.Sound) {slot : UInt64} (event : Event)
    (inside : slot.toNat ≤ log.capacity.toNat) :
    log.store slot event
      = .ok (log.setHalf log.active ((log.half log.active).write (slot - 1) event)) := by
  have filled := sound.spacious.toNat_slotsIn_succ
  have bounded := sound.spacious.bounded
  have start := sound.spacious.toNat_halfOffset_le log.active
  simp only [capacity] at inside
  have place : (halfOffset log.halfBytes log.active + slot * Event.byteSize).toNat
      = (halfOffset log.halfBytes log.active).toNat + slot.toNat * 16 := by
    simp only [Event.byteSize, UInt64.toNat_add, UInt64.toNat_mul, UInt64.reduceToNat]
    omega
  have writable := (sound.guarded (halfOffset log.halfBytes log.active + slot * Event.byteSize)
    (by rw [place, sound.spacious.toNat_regionBytes]; omega)).mpr
    (by constructor <;> rw [place] <;> omega)
  simp only [store, writable, if_true]

/-- The slot behind the last one lies in the guard page. -/
theorem store_of_eq_succ {log : Log} (sound : log.Sound) {slot : UInt64} (event : Event)
    (behind : slot.toNat = log.capacity.toNat + 1) :
    log.store slot event = .error ⟨log.guardAddress⟩ := by
  have filled := sound.spacious.toNat_slotsIn_succ
  have bounded := sound.spacious.bounded
  have start := sound.spacious.toNat_halfOffset_le log.active
  have last : slot * Event.byteSize = log.halfBytes := by
    apply UInt64.toNat_inj.mp
    simp only [capacity] at behind
    simp only [Event.byteSize, UInt64.toNat_mul, UInt64.reduceToNat]
    omega
  have place : (halfOffset log.halfBytes log.active + log.halfBytes).toNat
      = (halfOffset log.halfBytes log.active).toNat + log.halfBytes.toNat :=
    toNat_add_of_lt (by omega)
  have refused : ¬ log.protection.isWritable (halfOffset log.halfBytes log.active + log.halfBytes)
      = true := by
    rw [sound.guarded _ (by rw [place, sound.spacious.toNat_regionBytes]; omega)]
    rintro ⟨-, below⟩
    rw [place] at below
    exact Nat.lt_irrefl _ below
  simp only [store, last, refused, guardAddress, UInt64.add_assoc]
  rfl

/-! ## Appends -/

variable {log : Log}

theorem toNat_count_succ (sound : log.Sound) : (log.count + 1).toNat = log.count.toNat + 1 := by
  have counted : log.count.toNat ≤ log.capacity.toNat := sound.counted log.active
  have small := sound.toNat_capacity_lt
  exact toNat_add_of_lt (by simp only [UInt64.reduceToNat]; omega)

/-- An event that fits goes behind the events of the active half. -/
theorem append_of_fits (sound : log.Sound) (event : Event)
    (fits : log.count.toNat + 1 ≤ log.capacity.toNat) :
    log.append event = (.ok (), log.setHalf log.active ((log.half log.active).push event)) := by
  have slot := toNat_count_succ sound
  rw [append, store_of_le sound event (by omega)]
  simp only [setCount, active_setHalf, half_setHalf_self, setHalf_setHalf,
    UInt64.add_sub_cancel]
  rfl

/-- An event that does not fit faults and leaves the log alone. -/
theorem append_of_full (sound : log.Sound) (event : Event)
    (full : log.count.toNat = log.capacity.toNat) :
    log.append event = (.error ⟨log.guardAddress⟩, log) := by
  have slot := toNat_count_succ sound
  rw [append, store_of_eq_succ sound event (by omega)]

/-- A pair that fits goes behind the events of the active half. -/
theorem appendPair_of_fits (sound : log.Sound) (event operand : Event)
    (fits : log.count.toNat + 2 ≤ log.capacity.toNat) :
    log.appendPair event operand
      = (.ok (), log.setHalf log.active (((log.half log.active).push event).push operand)) := by
  have slot := toNat_count_succ sound
  have small := sound.toNat_capacity_lt
  have next : (log.count + 1 + 1).toNat = log.count.toNat + 2 := by
    rw [toNat_add_of_lt (by simp only [slot, UInt64.reduceToNat]; omega), slot]
    rfl
  have stored := sound.setHalf log.active
    ((log.half log.active).write log.count event) (sound.counted log.active)
  rw [appendPair, store_of_le sound event (by omega)]
  simp only [UInt64.add_sub_cancel]
  rw [store_of_le stored operand (by rw [next, capacity_setHalf]; omega)]
  simp only [setCount, active_setHalf, half_setHalf_self, setHalf_setHalf,
    UInt64.add_sub_cancel]
  rfl

/-- A pair that does not fit faults.  Its first slot may still have been written, behind the
counted ones. -/
theorem appendPair_of_full (sound : log.Sound) (event operand : Event)
    (full : log.capacity.toNat < log.count.toNat + 2) :
    ∃ half, log.appendPair event operand
        = (.error ⟨log.guardAddress⟩, log.setHalf log.active half)
      ∧ half.events = log.activeEvents ∧ half.count = log.count := by
  have counted : log.count.toNat ≤ log.capacity.toNat := sound.counted log.active
  have slot := toNat_count_succ sound
  have small := sound.toNat_capacity_lt
  by_cases last : log.count.toNat = log.capacity.toNat
  · refine ⟨log.half log.active, ?_, rfl, rfl⟩
    rw [appendPair, store_of_eq_succ sound event (by omega), setHalf_half]
  · have next : (log.count + 1 + 1).toNat = log.count.toNat + 2 := by
      rw [toNat_add_of_lt (by simp only [slot, UInt64.reduceToNat]; omega), slot]
      rfl
    have stored := sound.setHalf log.active
      ((log.half log.active).write log.count event) (sound.counted log.active)
    refine ⟨(log.half log.active).write log.count event, ?_, Half.events_write _ _, rfl⟩
    rw [appendPair, store_of_le sound event (by omega)]
    simp only [UInt64.add_sub_cancel]
    rw [store_of_eq_succ stored operand (by rw [next, capacity_setHalf]; omega),
      guardAddress_setHalf]

/-! ## Flipping and draining -/

theorem half_flip_active (log : Log) : log.flip.half log.active = log.half log.active := by
  cases side : log.active <;> simp [flip, side, Side.other, setCount, setHalf, half]

theorem half_flip_other (log : Log) :
    log.flip.half log.active.other = { log.half log.active.other with count := 0 } := by
  cases side : log.active <;> simp [flip, side, Side.other, setCount, setHalf, half]

@[simp] theorem active_flip (log : Log) : log.flip.active = log.active.other := rfl

@[simp] theorem isClosed_flip (log : Log) : log.flip.isClosed = log.isClosed := by
  simp [flip, setCount]

@[simp] theorem base_flip (log : Log) : log.flip.base = log.base := by
  simp [flip, setCount]

@[simp] theorem halfBytes_flip (log : Log) : log.flip.halfBytes = log.halfBytes := by
  simp [flip, setCount]

/-- Opening one half after closing the other moves the protection over. -/
theorem guards_flip {halfBytes : UInt64} {active : Side} {protection : Memory.Protection}
    (spacious : Spacious halfBytes) (guarded : Guards halfBytes active protection) :
    Guards halfBytes active.other
      ((protection.set (halfOffset halfBytes active) halfBytes false).set
        (halfOffset halfBytes active.other) halfBytes true) := by
  intro offset inside
  have before := guarded offset inside
  have bounded := spacious.bounded
  have stop : ∀ side, (halfOffset halfBytes side + halfBytes).toNat
      = (halfOffset halfBytes side).toNat + halfBytes.toNat := by
    intro side
    have start := spacious.toNat_halfOffset_le side
    exact toNat_add_of_lt (by omega)
  simp only [Memory.Protection.isWritable_set, UInt64.le_iff_toNat_le, UInt64.lt_iff_toNat_lt, stop]
  simp only [InHalf] at before ⊢
  grind

/-- Sealing the active half opens the other one. -/
theorem Sound.flip (sound : log.Sound) : log.flip.Sound where
  spacious := by simpa using sound.spacious
  guarded := by
    rw [halfBytes_flip, active_flip]
    exact guards_flip sound.spacious sound.guarded
  counted := by
    intro side
    rw [capacity, halfBytes_flip]
    by_cases here : side = log.active
    · subst here
      rw [half_flip_active]
      exact sound.counted log.active
    · have opposite : side = log.active.other := by
        cases side <;> cases active : log.active <;> simp_all [Side.other]
      subst opposite
      rw [half_flip_other]
      exact Nat.zero_le _

theorem reset_of_open (opened : log.isClosed = false) :
    log.reset = { log.setCount log.active 0 with isSealed := false } := by
  simp [reset, opened]

@[simp] theorem base_reset (log : Log) : log.reset.base = log.base := by
  unfold reset
  split <;> simp [setCount]

@[simp] theorem halfBytes_reset (log : Log) : log.reset.halfBytes = log.halfBytes := by
  unfold reset
  split <;> simp [setCount]

@[simp] theorem isClosed_reset (log : Log) : log.reset.isClosed = log.isClosed := by
  unfold reset
  split <;> simp [setCount]

theorem isSealed_reset (opened : log.isClosed = false) : log.reset.isSealed = false := by
  rw [reset_of_open opened]

/-- A drained log has no events in its active half. -/
theorem count_reset (opened : log.isClosed = false) : log.reset.count = 0 := by
  rw [reset_of_open opened]
  simp only [count, setCount, active_setHalf]
  cases side : log.active <;> simp [setHalf, half, side]

theorem Sound.reset (sound : log.Sound) : log.reset.Sound := by
  by_cases opened : log.isClosed = false
  · have drained := sound.setHalf log.active
      { log.half log.active with count := 0 } (Nat.zero_le _)
    rw [reset_of_open opened]
    exact drained.congr rfl rfl rfl fun side => by cases side <;> rfl
  · rwa [Log.reset, if_pos (by simpa using opened)]

/-! ## The events that are not drained -/

theorem segments_of_unsealed (opened : log.isClosed = false) (unsealed : log.isSealed = false) :
    log.segments = [log.activeEvents] := by
  simp [segments, pendingSides, opened, unsealed, activeEvents]

theorem segments_of_sealed (opened : log.isClosed = false) (isSealed : log.isSealed = true) :
    log.segments = [(log.half log.active.other).events, log.activeEvents] := by
  simp [segments, pendingSides, opened, isSealed, activeEvents]

theorem segments_of_closed (closed : log.isClosed = true) : log.segments = [] := by
  simp [segments, pendingSides, closed]

/-- Sealing keeps the events and opens an empty half behind them. -/
theorem segments_flip (opened : log.isClosed = false) :
    log.flip.segments = [log.activeEvents, []] := by
  have empty : (log.flip.half log.active.other).events = [] :=
    Half.events_of_count_eq_zero (by rw [half_flip_other])
  rw [segments_of_sealed (by simpa using opened) rfl, activeEvents, active_flip, Side.other_other,
    half_flip_active, empty]
  rfl

theorem segments_reset (opened : log.isClosed = false) : log.reset.segments = [[]] := by
  rw [segments_of_unsealed (by simpa using opened) (isSealed_reset opened), activeEvents,
    Half.events_of_count_eq_zero (count_reset opened)]

@[simp] theorem segments_close (log : Log) : log.close.segments = [] :=
  segments_of_closed rfl

/-- A created log is open, and it holds nothing. -/
theorem create_fresh {base room requested : UInt64}
    (created : create base room requested = .ok log) :
    log.isClosed = false ∧ log.isSealed = false ∧ log.activeEvents = [] := by
  obtain ⟨protection, rfl, -⟩ := create_eq_ok created
  exact ⟨rfl, rfl, rfl⟩

/-- A clone of an open log is open and holds the same events. -/
theorem clone_same (spacious : Spacious log.halfBytes) (opened : log.isClosed = false)
    {base room : UInt64} {copy : Log} (cloned : log.clone base room = .ok copy) :
    copy.isClosed = false ∧ copy.isSealed = log.isSealed ∧ copy.segments = log.segments := by
  obtain ⟨protection, rfl, -⟩ := clone_eq_ok spacious cloned
  refine ⟨rfl, rfl, ?_⟩
  simp only [segments, pendingSides, opened]
  refine List.map_congr_left fun side _ => ?_
  cases side <;> rfl

/-- No half holds more events than the capacity. -/
theorem Sound.length_le (sound : log.Sound) {segment : List Event}
    (member : segment ∈ log.segments) : segment.length ≤ log.capacity.toNat := by
  obtain ⟨side, -, rfl⟩ := List.mem_map.mp member
  rw [Half.events, Half.length_take]
  exact sound.counted side

end Log

end HeapAudit
