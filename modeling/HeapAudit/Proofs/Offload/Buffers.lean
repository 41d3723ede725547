import HeapAudit.Offload.Device
import HeapAudit.Proofs.Data.WordMap

/-!
# What a refused request leaves behind

A device refuses more events than a buffer holds.  A refused copy leaves the device as it was, and so
does a refused transfer to a buffer that exists.  But a transfer creates its buffer before it looks at
the events: the first transfer to a buffer leaves one behind also if it is refused.  That buffer is
without events, and its checksum is that of nothing at all, all zeros, which is not the checksum of no
events.

These are the only traces.  A request that is refused can be told from one that was never made exactly
if it is the first transfer to its buffer, and the events of a buffer agree with its checksum exactly
if some transfer to it was granted (`Device.refusals_show_iff`).  What a buffer comes to is told by the
requests alone, one step at a time (`Device.Leaves`).
-/

namespace HeapAudit.Device

set_option autoImplicit false

/-! ## Requests -/

/-- What can be asked of a device. -/
inductive Request where
  | transfer (id : UInt64) (events : List Event)
  | copy (events : List Event)

/-- Answers a request. -/
def perform (device : Device) : Request → Except Cause Unit × Device
  | .transfer id events => device.transfer id events
  | .copy events => device.copy events

/-- Answers requests in order. -/
def performAll (device : Device) : List Request → List (Except Cause Unit) × Device
  | [] => ([], device)
  | request :: rest =>
    let (answer, next) := device.perform request
    let (answers, reached) := next.performAll rest
    (answer :: answers, reached)

/-- What can be seen of a device: its buffers by their numbers, the staging buffer and the numbers of
granted requests. -/
structure View where
  buffer? : UInt64 → Option Buffer
  staging : Buffer
  transfers : Nat
  copies : Nat

/-- What is seen of a device. -/
def view (device : Device) : View :=
  ⟨device.buffers.find?, device.staging, device.transfers, device.copies⟩

/-- Two devices that answer all requests alike from now on and always look the same. -/
def Indistinct (device other : Device) : Prop :=
  ∀ later, (device.performAll later).1 = (other.performAll later).1
    ∧ (device.performAll later).2.view = (other.performAll later).2.view

/-! ## One request -/

section Request

variable {device : Device} {id : UInt64} {events : List Event}

theorem transfer_of_le (fits : events.length ≤ device.capacity.toNat) :
    device.transfer id events
      = (.ok (), { device with
          buffers := device.buffers.insert id ⟨events, Event.checksum events⟩
          transfers := device.transfers + 1 }) := by
  simp only [transfer, fill, if_neg (Nat.not_lt.mpr fits), WordMap.insert_insert_self]

theorem transfer_of_lt (large : device.capacity.toNat < events.length) :
    device.transfer id events
      = (.error (.deviceFull events.length device.capacity), { device with
          buffers := device.buffers.insert id ((device.buffers.find? id).getD {}) }) := by
  simp only [transfer, fill, if_pos large]

theorem copy_of_le (fits : events.length ≤ device.capacity.toNat) :
    device.copy events
      = (.ok (), { device with
          staging := ⟨events, Event.checksum events⟩
          copies := device.copies + 1 }) := by
  simp only [copy, fill, if_neg (Nat.not_lt.mpr fits)]

theorem copy_of_lt (large : device.capacity.toNat < events.length) :
    device.copy events = (.error (.deviceFull events.length device.capacity), device) := by
  simp only [copy, fill, if_pos large]

theorem capacity_perform (device : Device) (request : Request) :
    (device.perform request).2.capacity = device.capacity := by
  cases request with
  | transfer id events =>
    rw [perform]
    rcases Nat.lt_or_ge device.capacity.toNat events.length with large | fits
    · rw [transfer_of_lt large]
    · rw [transfer_of_le fits]
  | copy events =>
    rw [perform]
    rcases Nat.lt_or_ge device.capacity.toNat events.length with large | fits
    · rw [copy_of_lt large]
    · rw [copy_of_le fits]

/-- A refused request leaves the device as it was, unless it is a transfer to a buffer that is not
there; then it leaves one behind. -/
theorem perform_refused {request : Request} {cause : Cause}
    (refused : (device.perform request).1 = .error cause) :
    ((∀ id events, request = .transfer id events → device.buffers.find? id ≠ none)
        ∧ (device.perform request).2 = device)
      ∨ ∃ id events, request = .transfer id events ∧ device.buffers.find? id = none
        ∧ (device.perform request).2.buffers.find? id = some {} := by
  cases request with
  | transfer target events =>
    rw [perform] at refused ⊢
    rcases Nat.lt_or_ge device.capacity.toNat events.length with large | fits
    · rw [transfer_of_lt large]
      cases found : device.buffers.find? target with
      | none => exact .inr ⟨target, events, rfl, found, WordMap.find?_insert_self ..⟩
      | some buffer =>
        refine .inl ⟨?_, ?_⟩
        · rintro id more same
          cases same
          rw [found]
          exact Option.some_ne_none buffer
        · dsimp only
          rw [Option.getD_some, WordMap.insert_of_find? found]
    · rw [transfer_of_le fits] at refused
      cases refused
  | copy events =>
    rw [perform] at refused ⊢
    rcases Nat.lt_or_ge device.capacity.toNat events.length with large | fits
    · rw [copy_of_lt large]
      refine .inl ⟨?_, rfl⟩
      rintro id more same
      cases same
    · rw [copy_of_le fits] at refused
      cases refused

/-- A buffer changes only by transfers to it. -/
theorem find?_perform_of_ne (device : Device) {request : Request}
    (elsewhere : ∀ events, request ≠ .transfer id events) :
    (device.perform request).2.buffers.find? id = device.buffers.find? id := by
  cases request with
  | transfer target events =>
    have different : target ≠ id := by
      rintro rfl
      exact elsewhere events rfl
    rw [perform]
    rcases Nat.lt_or_ge device.capacity.toNat events.length with large | fits
    · rw [transfer_of_lt large]
      exact WordMap.find?_insert_of_ne _ different
    · rw [transfer_of_le fits]
      exact WordMap.find?_insert_of_ne _ different
  | copy events =>
    rw [perform]
    rcases Nat.lt_or_ge device.capacity.toNat events.length with large | fits
    · rw [copy_of_lt large]
    · rw [copy_of_le fits]

/-- The checksum of a bare buffer is not that of no events. -/
theorem bare_checksum_ne : ({} : Buffer).checksum ≠ Event.checksum ({} : Buffer).events := by
  decide +kernel

/-- Devices with different buffers are not indistinct. -/
theorem not_indistinct {other : Device}
    (differ : device.buffers.find? id ≠ other.buffers.find? id) : ¬ device.Indistinct other := by
  intro indistinct
  exact differ (congrFun (congrArg View.buffer? (indistinct []).2) id)

end Request

/-! ## Many requests -/

/-- What requests leave of a buffer: nothing as long as none of them names it, a bare buffer as long
as all that name it are too large, and else the events of one that is not, with their checksum. -/
inductive Leaves (capacity : UInt64) (requests : List Request) (id : UInt64) :
    Option Buffer → Prop where
  | nothing (unnamed : ∀ events, .transfer id events ∉ requests) :
      Leaves capacity requests id none
  | bare (named : ∃ events, .transfer id events ∈ requests)
      (large : ∀ events, .transfer id events ∈ requests → capacity.toNat < events.length) :
      Leaves capacity requests id (some {})
  | stored (events : List Event) (named : .transfer id events ∈ requests)
      (fits : events.length ≤ capacity.toNat) :
      Leaves capacity requests id (some ⟨events, Event.checksum events⟩)

namespace Leaves

variable {capacity : UInt64} {requests : List Request} {id : UInt64} {held : Option Buffer}

/-- A request that does not name the buffer leaves it as it was. -/
theorem concat_of_ne (leaves : Leaves capacity requests id held) {request : Request}
    (elsewhere : ∀ events, request ≠ .transfer id events) :
    Leaves capacity (requests ++ [request]) id held := by
  have same : ∀ events, Request.transfer id events ∈ requests ++ [request]
      ↔ .transfer id events ∈ requests := by
    intro events
    rw [List.mem_append, List.mem_singleton]
    exact or_iff_left fun here => elsewhere events here.symm
  cases leaves with
  | nothing unnamed => exact .nothing fun events member => unnamed events ((same events).mp member)
  | bare named large =>
    obtain ⟨events, named⟩ := named
    exact .bare ⟨events, (same events).mpr named⟩ fun events member =>
      large events ((same events).mp member)
  | stored events named fits => exact .stored events ((same events).mpr named) fits

/-- A transfer that is too large leaves at least a bare buffer. -/
theorem concat_of_lt (leaves : Leaves capacity requests id held) {events : List Event}
    (large : capacity.toNat < events.length) :
    Leaves capacity (requests ++ [.transfer id events]) id (some (held.getD {})) := by
  have here : Request.transfer id events ∈ requests ++ [.transfer id events] :=
    List.mem_append_right _ (List.mem_singleton_self _)
  cases leaves with
  | nothing unnamed =>
    refine .bare ⟨events, here⟩ fun other member => ?_
    rcases List.mem_append.mp member with before | last
    · exact absurd before (unnamed other)
    · cases List.mem_singleton.mp last
      exact large
  | bare _ allLarge =>
    refine .bare ⟨events, here⟩ fun other member => ?_
    rcases List.mem_append.mp member with before | last
    · exact allLarge other before
    · cases List.mem_singleton.mp last
      exact large
  | stored other named fits => exact .stored other (List.mem_append_left _ named) fits

/-- **One more request**, whatever it names. -/
theorem perform {device : Device} (leaves : ∀ id, Leaves device.capacity requests id
      (device.buffers.find? id)) (request : Request) (id : UInt64) :
    Leaves device.capacity (requests ++ [request]) id
      ((device.perform request).2.buffers.find? id) := by
  by_cases named : ∃ events, request = .transfer id events
  · obtain ⟨events, rfl⟩ := named
    rw [Device.perform]
    rcases Nat.lt_or_ge device.capacity.toNat events.length with large | fits
    · rw [transfer_of_lt large]
      dsimp only
      rw [WordMap.find?_insert_self]
      exact (leaves id).concat_of_lt large
    · rw [transfer_of_le fits]
      dsimp only
      rw [WordMap.find?_insert_self]
      exact .stored events (List.mem_append_right _ (List.mem_singleton_self _)) fits
  · have elsewhere : ∀ events, request ≠ .transfer id events := not_exists.mp named
    rw [find?_perform_of_ne device elsewhere]
    exact (leaves id).concat_of_ne elsewhere

theorem eq_none_iff (leaves : Leaves capacity requests id held) :
    held = none ↔ ∀ events, .transfer id events ∉ requests := by
  cases leaves with
  | nothing unnamed => exact ⟨fun _ => unnamed, fun _ => rfl⟩
  | bare named _ =>
    obtain ⟨events, named⟩ := named
    exact ⟨nofun, fun unnamed => absurd named (unnamed events)⟩
  | stored events named _ => exact ⟨nofun, fun unnamed => absurd named (unnamed events)⟩

/-- A buffer that exists is not overfull, and its checksum is that of its events if some transfer to
it was granted. -/
theorem some_holds {buffer : Buffer} (leaves : Leaves capacity requests id (some buffer)) :
    buffer.events.length ≤ capacity.toNat
      ∧ (buffer.checksum = Event.checksum buffer.events
        ↔ ∃ events, .transfer id events ∈ requests ∧ events.length ≤ capacity.toNat) := by
  cases leaves with
  | bare _ large =>
    refine ⟨Nat.zero_le _, fun same => absurd same bare_checksum_ne, ?_⟩
    rintro ⟨events, named, fits⟩
    exact absurd (large events named) (Nat.not_lt.mpr fits)
  | stored events named fits => exact ⟨fits, fun _ => ⟨events, named, fits⟩, fun _ => rfl⟩

end Leaves

/-- **What many requests leave of a buffer**, by one request after the other. -/
theorem leaves_performAll (device : Device) (requests : List Request) :
    ∀ done, (∀ id, Leaves device.capacity done id (device.buffers.find? id)) →
      (device.performAll requests).2.capacity = device.capacity
      ∧ ∀ id, Leaves device.capacity (done ++ requests) id
        ((device.performAll requests).2.buffers.find? id) := by
  induction requests generalizing device with
  | nil =>
    intro done leaves
    rw [List.append_nil]
    exact ⟨rfl, leaves⟩
  | cons request rest onward =>
    intro done leaves
    have capacity := device.capacity_perform request
    have next := onward (device.perform request).2 (done ++ [request]) fun id => by
      rw [capacity]
      exact Leaves.perform leaves request id
    rw [capacity, List.append_assoc] at next
    exact next

theorem create_eq_ok {capacity : UInt64} {device : Device} (created : create capacity = .ok device) :
    device = { capacity := capacity } := by
  unfold create at created
  split at created
  · cases created
  · cases created
    rfl

/-- **What a refused request shows.**  Whatever was asked of a new device: a request that is refused
can be told from one that was never made, by what the device looks like or answers later, exactly if
it is the first transfer to its buffer.  A buffer that exists never holds more events than it can, and
its checksum is that of its events exactly if some transfer to it was granted. -/
theorem refusals_show_iff (capacity : UInt64) (device : Device)
    (created : create capacity = .ok device) (requests : List Request) :
    let reached := (device.performAll requests).2
    (∀ request cause, (reached.perform request).1 = .error cause →
      ((reached.perform request).2.Indistinct reached
        ↔ ¬ ∃ id events, request = .transfer id events
          ∧ ∀ earlier, .transfer id earlier ∉ requests))
    ∧ ∀ id buffer, reached.buffers.find? id = some buffer →
      buffer.events.length ≤ capacity.toNat
      ∧ (buffer.checksum = Event.checksum buffer.events
        ↔ ∃ events, .transfer id events ∈ requests ∧ events.length ≤ capacity.toNat) := by
  intro reached
  obtain rfl := create_eq_ok created
  have empty : ∀ id, Leaves capacity [] id ((∅ : WordMap Buffer).find? id) := by
    intro id
    rw [WordMap.find?_empty]
    exact .nothing fun _ => List.not_mem_nil
  obtain ⟨-, leaves⟩ := leaves_performAll { capacity := capacity } requests [] empty
  rw [List.nil_append] at leaves
  refine ⟨fun request cause refused => ?_, fun id buffer found => ?_⟩
  · rcases perform_refused refused with ⟨known, same⟩ | ⟨id, events, named, absent, left⟩
    · rw [same]
      refine ⟨?_, fun _ later => ⟨rfl, rfl⟩⟩
      rintro - ⟨id, events, named, unnamed⟩
      exact known id events named ((leaves id).eq_none_iff.mpr unnamed)
    · have differ : (reached.perform request).2.buffers.find? id ≠ reached.buffers.find? id := by
        rw [left, absent]
        exact Option.some_ne_none _
      constructor
      · intro indistinct
        exact absurd indistinct (not_indistinct differ)
      · intro later
        exact absurd ⟨id, events, named, (leaves id).eq_none_iff.mp absent⟩ later
  · have holds := leaves id
    rw [show (performAll _ requests).2.buffers.find? id = some buffer from found] at holds
    exact holds.some_holds

/-- A buffer that was refused events before takes some, and is refused others again. -/
def retried : List Request :=
  [.transfer 7 [⟨1, 2⟩, ⟨3, 4⟩], .transfer 7 [⟨5, 6⟩], .copy [⟨7, 8⟩]]

/-- From then on a refused transfer to it does not show, and its checksum holds. -/
theorem refusals_show_iff_retried :
    let reached := (performAll { capacity := 1 } retried).2
    create 1 = .ok { capacity := 1 }
    ∧ (reached.perform (.transfer 7 [⟨1, 2⟩, ⟨3, 4⟩])).1 = .error (.deviceFull 2 1)
    ∧ (reached.perform (.transfer 7 [⟨1, 2⟩, ⟨3, 4⟩])).2.Indistinct reached
    ∧ ∃ buffer, reached.buffers.find? 7 = some buffer ∧ buffer.events = [⟨5, 6⟩]
      ∧ buffer.checksum = Event.checksum [⟨5, 6⟩] := by
  intro reached
  obtain ⟨shows, holds⟩ := refusals_show_iff 1 { capacity := 1 } rfl retried
  have refused : (reached.perform (.transfer 7 [⟨1, 2⟩, ⟨3, 4⟩])).1
      = .error (.deviceFull 2 1) := rfl
  refine ⟨rfl, refused, (shows _ _ refused).mpr ?_, _, rfl, rfl, ?_⟩
  · rintro ⟨id, events, same, unnamed⟩
    cases same
    exact unnamed [⟨5, 6⟩] (.tail _ (.head _))
  · exact ((holds 7 _ rfl).2).mpr ⟨[⟨5, 6⟩], .tail _ (.head _), by decide⟩

/-- **A first transfer shows although it is refused**: it leaves a buffer behind, and the checksum of
that buffer is not the one of its events. -/
theorem first_refusal_shows :
    let device : Device := { capacity := 1 }
    let after := (device.perform (.transfer 7 [⟨1, 2⟩, ⟨3, 4⟩])).2
    create 1 = .ok device
    ∧ (device.perform (.transfer 7 [⟨1, 2⟩, ⟨3, 4⟩])).1 = .error (.deviceFull 2 1)
    ∧ ¬ after.Indistinct device
    ∧ device.buffers.find? 7 = none ∧ after.buffers.find? 7 = some ⟨[], List.replicate 32 0⟩
    ∧ List.replicate 32 0 ≠ Event.checksum [] := by
  intro device after
  have absent : device.buffers.find? 7 = none := WordMap.find?_empty 7
  have left : after.buffers.find? 7 = some ⟨[], List.replicate 32 0⟩ :=
    WordMap.find?_insert_self ..
  have differ : after.buffers.find? 7 ≠ device.buffers.find? 7 := by
    rw [left, absent]
    exact Option.some_ne_none _
  exact ⟨rfl, rfl, not_indistinct differ, absent, left, bare_checksum_ne⟩

end HeapAudit.Device
