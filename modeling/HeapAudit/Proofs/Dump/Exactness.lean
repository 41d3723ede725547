import HeapAudit.Proofs.Bytes.LittleEndian
import HeapAudit.Proofs.Dump.Robustness

/-!
# What a dump exposes

Reading a dump copies no events.  For every log it hands out a run of memory, by its address and the
number of its events, and whoever holds the run reads what lies there (`Dump.view`).  Of a run it is
only known that its declared length is no negative signed word and that it ends in the address space
(`EventRun.Addressable`); what is more was checked before, in words that wrap around.

This is enough (`Dump.decode_exposes_exactly`).  A check that passed because something wrapped around
leaves a run that ends behind the last address, wherever the bytes of the dump lie, for none of them
lies at address zero.  So the runs of a dump that is accepted are where its header says, counted
without wrapping around: one behind the other and inside the bytes of the dump.

The dump that `Dump.decode` gives is what these runs show.
-/

namespace HeapAudit

set_option autoImplicit false

/-! ## Runs of memory -/

/-- Memory holds bytes from an address on.  There is no byte at address zero and none behind the last
address, and the number of bytes is a signed word. -/
structure Memory.Holds (memory : Nat → UInt8) (base : Nat) (data : List UInt8) : Prop where
  positive : 0 < base
  inside : base + data.length ≤ 2 ^ 64
  signed : data.length < 2 ^ 63
  byte : ∀ place (within : place < data.length), memory (base + place) = data[place]

/-- A run of events in memory: its address and the number of its events. -/
structure EventRun where
  start : Nat
  count : Nat
  deriving DecidableEq

namespace EventRun

/-- Where a run ends. -/
def stop (run : EventRun) : Nat := run.start + run.count * 16

/-- A run can be handed out if its length is a signed word and it ends in the address space. -/
def Addressable (run : EventRun) : Prop := run.count < 2 ^ 63 ∧ run.stop ≤ 2 ^ 64

instance (run : EventRun) : Decidable run.Addressable := inferInstanceAs (Decidable (_ ∧ _))

variable (memory : Nat → UInt8)

/-- The bytes of a run. -/
def bytes (run : EventRun) : List UInt8 :=
  (List.range (run.count * 16)).map fun place => memory (run.start + place)

/-- The events of a run. -/
def events (run : EventRun) : List Event := Dump.readEvents run.count (run.bytes memory)

end EventRun

/-- A log of a dump in memory. -/
structure LogView where
  id : Uuid
  run : EventRun
  deriving DecidableEq

/-- A dump in memory. -/
structure DumpView where
  session : Uuid
  logs : List LogView
  deriving DecidableEq

/-- A log as memory shows it. -/
def LogView.read (memory : Nat → UInt8) (log : LogView) : DumpLog :=
  ⟨log.id, log.run.events memory⟩

/-- A dump as memory shows it. -/
def DumpView.read (memory : Nat → UInt8) (view : DumpView) : Dump :=
  ⟨view.session, view.logs.map (LogView.read memory)⟩

namespace Dump

/-! ## Finding the runs of a dump -/

/-- Finds the run of a log in a dump of the given length at an address. -/
def viewLog (base length : Nat) (offset : UInt64) (log : LogHeader) : Except Failure LogView :=
  let run : EventRun := ⟨base + offset.toNat, log.events.toNat⟩
  if length.toUInt64 < offset + log.events * Event.byteSize then
    .error (.refusal (.eventsTruncated log.id))
  else if log.events = 0 then .ok ⟨log.id, run⟩
  else if length.toUInt64 ≤ offset then .error (.abort (.indexOutside offset length.toUInt64))
  else if run.Addressable then .ok ⟨log.id, run⟩
  else .error (.abort .runTooLong)

/-- Finds the runs of logs that follow each other from an offset on. -/
def viewLogs (base length : Nat) : UInt64 → List LogHeader → Except Failure (List LogView)
  | _, [] => .ok []
  | offset, log :: rest => do
    let first ← viewLog base length offset log
    let others ← viewLogs base length (offset + log.events * Event.byteSize) rest
    return first :: others

/-- **Finds the runs of a dump** that lies at an address. -/
def view (base : Nat) (data : List UInt8) : Except Failure DumpView := do
  let length := data.length.toUInt64
  if length < preambleSize then throw (.refusal .dumpTruncated)
  if data.take 8 ≠ magic then throw (.refusal .badMagic)
  let stop := preambleSize + declaredSize data
  if length < stop then throw (.refusal .headerTruncated)
  if stop < preambleSize then throw (.abort (.partOutside preambleSize stop))
  match DumpHeader.read? (declaredHeader data) with
  | none => throw (.refusal .headerMalformed)
  | some header =>
    return ⟨header.session,
      ← viewLogs base data.length (eventsOffset (declaredSize data)) header.logs⟩

/-! ## What the runs show -/

/-- Events that were read are written as the bytes that they were read from. -/
theorem bytes_readEvents {count : Nat} {bytes : List UInt8} (whole : bytes.length = count * 16) :
    Event.bytes (readEvents count bytes) = bytes := by
  induction count generalizing bytes with
  | zero => exact (List.eq_nil_of_length_eq_zero (by omega)).symm
  | succ count onward =>
    have first : (bytes.take 8).length = 8 := by rw [List.length_take]; omega
    have second : ((bytes.drop 8).take 8).length = 8 := by
      rw [List.length_take, List.length_drop]
      omega
    rw [readEvents, Event.bytes_cons, LittleEndian.encode_decode first,
      LittleEndian.encode_decode second, onward (by rw [List.length_drop]; omega)]
    have behind : bytes.drop 16 = (bytes.drop 8).drop 8 := by rw [List.drop_drop]
    rw [behind, List.take_append_drop, List.take_append_drop]

theorem length_readEvents (count : Nat) (bytes : List UInt8) :
    (readEvents count bytes).length = count := by
  induction count generalizing bytes with
  | zero => rfl
  | succ count onward => rw [readEvents, List.length_cons, onward]

/-- What is read of some events does not depend on what follows them. -/
theorem readEvents_take {count : Nat} {bytes : List UInt8} (long : count * 16 ≤ bytes.length) :
    readEvents count (bytes.take (count * 16)) = readEvents count bytes := by
  have whole : (bytes.take (count * 16)).length = count * 16 := by
    rw [List.length_take]
    omega
  have written := bytes_readEvents whole
  have again := readEvents_bytes (readEvents count (bytes.take (count * 16)))
    (bytes.drop (count * 16))
  rw [written, length_readEvents, List.take_append_drop] at again
  exact again.symm

variable {memory : Nat → UInt8} {base : Nat} {data : List UInt8}

/-- A run inside the bytes of a dump shows them. -/
theorem bytes_eq_of_holds (held : Memory.Holds memory base data) {start count : Nat}
    (inside : start + count * 16 ≤ data.length) :
    EventRun.bytes memory ⟨base + start, count⟩ = (data.drop start).take (count * 16) := by
  apply List.ext_getElem
  · rw [EventRun.bytes, List.length_map, List.length_range, List.length_take, List.length_drop]
    dsimp only
    omega
  · intro place within _
    rw [EventRun.bytes, List.length_map, List.length_range] at within
    dsimp only at within
    simp only [EventRun.bytes, List.getElem_map, List.getElem_range, List.getElem_take,
      List.getElem_drop]
    rw [Nat.add_assoc]
    exact held.byte (start + place) (by omega)

/-- **A log is read from the run that is found for it**, and both fail alike. -/
theorem readLog_eq_view (held : Memory.Holds memory base data) (offset : UInt64)
    (log : LogHeader) :
    readLog data offset log
      = (viewLog base data.length offset log).map (LogView.read memory) := by
  have positive := held.positive
  have within := held.inside
  have length := toNat_toUInt64_of_lt (show data.length < 18446744073709551616 by omega)
  unfold readLog viewLog
  dsimp only
  by_cases cut : data.length.toUInt64 < offset + log.events * Event.byteSize
  · rw [if_pos cut, if_pos cut]
    rfl
  · rw [if_neg cut, if_neg cut]
    by_cases none : log.events = 0
    · rw [if_pos none, if_pos none, none]
      rfl
    · rw [if_neg none, if_neg none]
      by_cases behind : data.length.toUInt64 ≤ offset
      · rw [if_pos behind, if_pos behind]
        rfl
      · rw [if_neg behind, if_neg behind]
        rw [UInt64.lt_iff_toNat_lt, length] at cut
        simp only [UInt64.toNat_add, UInt64.toNat_mul, Event.byteSize, UInt64.reduceToNat] at cut
        -- an end that wraps around lies behind the last address, since the dump is not at zero
        have fits : EventRun.Addressable ⟨base + offset.toNat, log.events.toNat⟩
            ↔ ¬ data.length < offset.toNat + log.events.toNat * 16 := by
          simp only [EventRun.Addressable, EventRun.stop]
          omega
        by_cases long : data.length < offset.toNat + log.events.toNat * 16
        · rw [if_pos long, if_neg (fun addressable => fits.mp addressable long)]
          rfl
        · rw [if_neg long, if_pos (fits.mpr long)]
          have inside := Nat.not_lt.mp long
          have events : readEvents log.events.toNat (data.drop offset.toNat)
              = EventRun.events memory ⟨base + offset.toNat, log.events.toNat⟩ := by
            rw [EventRun.events, bytes_eq_of_holds held inside]
            exact (readEvents_take (by rw [List.length_drop]; omega)).symm
          rw [events]
          rfl

theorem readLogs_eq_view (held : Memory.Holds memory base data) (offset : UInt64)
    (logs : List LogHeader) :
    readLogs data offset logs
      = (viewLogs base data.length offset logs).map (List.map (LogView.read memory)) := by
  induction logs generalizing offset with
  | nil => rfl
  | cons log rest onward =>
    rw [readLogs, viewLogs, readLog_eq_view held, onward]
    cases viewLog base data.length offset log with
    | error failure => rfl
    | ok first =>
      cases viewLogs base data.length (offset + log.events * Event.byteSize) rest <;> rfl

/-- **A dump is read from the runs that are found in it**, and both fail alike. -/
theorem decode_eq_view (held : Memory.Holds memory base data) :
    decode data = (view base data).map (DumpView.read memory) := by
  have declared : LittleEndian.decode ((data.drop 8).take 8) = declaredSize data := rfl
  have named : (data.drop 16).take (declaredSize data).toNat = declaredHeader data := rfl
  unfold decode view
  dsimp only
  rw [declared, named]
  by_cases short : data.length.toUInt64 < preambleSize
  · rw [if_pos short, if_pos short]
    rfl
  · rw [if_neg short, if_neg short]
    by_cases foreign : data.take 8 ≠ magic
    · rw [if_pos foreign, if_pos foreign]
      rfl
    · rw [if_neg foreign, if_neg foreign]
      by_cases cut : data.length.toUInt64 < preambleSize + declaredSize data
      · rw [if_pos cut, if_pos cut]
        rfl
      · rw [if_neg cut, if_neg cut]
        by_cases wraps : preambleSize + declaredSize data < preambleSize
        · rw [if_pos wraps, if_pos wraps]
          rfl
        · rw [if_neg wraps, if_neg wraps]
          cases DumpHeader.read? (declaredHeader data) with
          | none => rfl
          | some header =>
            dsimp only
            rw [readLogs_eq_view held]
            cases viewLogs base data.length (eventsOffset (declaredSize data)) header.logs <;> rfl

/-! ## Where the runs are -/

/-- The logs of a header with the runs that it declares, from a start on and counted without wrapping
around. -/
def declaredLogs (base : Nat) : Nat → List LogHeader → List LogView
  | _, [] => []
  | start, log :: rest =>
    ⟨log.id, ⟨base + start, log.events.toNat⟩⟩
      :: declaredLogs base (start + log.events.toNat * 16) rest

/-- A log that is found lies where its header says. -/
theorem viewLog_eq_ok {length : Nat} (positive : 0 < base) (within : base + length ≤ 2 ^ 64)
    {offset : UInt64} {log : LogHeader} {found : LogView}
    (accepted : viewLog base length offset log = .ok found) :
    found = ⟨log.id, ⟨base + offset.toNat, log.events.toNat⟩⟩
      ∧ offset.toNat + log.events.toNat * 16 ≤ length := by
  have word := toNat_toUInt64_of_lt (show length < 18446744073709551616 by omega)
  have bounded := offset.toNat_lt
  unfold viewLog at accepted
  dsimp only at accepted
  split at accepted
  · cases accepted
  · rename_i covered
    rw [UInt64.lt_iff_toNat_lt, word] at covered
    simp only [UInt64.toNat_add, UInt64.toNat_mul, Event.byteSize, UInt64.reduceToNat] at covered
    split at accepted
    · rename_i none
      cases accepted
      refine ⟨rfl, ?_⟩
      rw [none, UInt64.toNat_zero] at covered ⊢
      omega
    · split at accepted
      · cases accepted
      · split at accepted
        · rename_i addressable
          cases accepted
          refine ⟨rfl, ?_⟩
          simp only [EventRun.Addressable, EventRun.stop] at addressable
          omega
        · cases accepted

/-- **Logs that are found** lie where their headers say: no offset on the way has wrapped around. -/
theorem viewLogs_eq_ok {length : Nat} (positive : 0 < base) (within : base + length ≤ 2 ^ 64)
    {offset : UInt64} {logs : List LogHeader} {found : List LogView}
    (accepted : viewLogs base length offset logs = .ok found) :
    found = declaredLogs base offset.toNat logs
      ∧ (logs = [] ∨ eventsStop offset.toNat logs ≤ length) := by
  induction logs generalizing offset found with
  | nil =>
    cases accepted
    exact ⟨rfl, .inl rfl⟩
  | cons log rest onward =>
    rw [viewLogs, bind_eq_ok] at accepted
    obtain ⟨first, here, accepted⟩ := accepted
    rw [bind_eq_ok] at accepted
    obtain ⟨others, there, same⟩ := accepted
    cases same
    obtain ⟨rfl, inside⟩ := viewLog_eq_ok positive within here
    have next : (offset + log.events * Event.byteSize).toNat
        = offset.toNat + log.events.toNat * 16 := by
      simp only [UInt64.toNat_add, UInt64.toNat_mul, Event.byteSize, UInt64.reduceToNat]
      omega
    obtain ⟨rfl, fits⟩ := onward there
    rw [next] at fits ⊢
    refine ⟨rfl, .inr ?_⟩
    rcases fits with rfl | fits
    · exact inside
    · exact fits

/-- Where the events of a log start in a dump with the given logs, by its place among them and counted
without wrapping around. -/
def bound (data : List UInt8) (logs : List LogHeader) (place : Nat) : Nat :=
  eventsStop (eventsStart (declaredSize data).toNat) (logs.take place)

theorem eventsStop_append (start : Nat) (logs others : List LogHeader) :
    eventsStop start (logs ++ others) = eventsStop (eventsStop start logs) others := by
  induction logs generalizing start with
  | nil => rfl
  | cons log rest onward => exact onward _

/-- Each log ends where the next one starts. -/
theorem bound_succ (data : List UInt8) {logs : List LogHeader} {place : Nat} {log : LogHeader}
    (listed : logs[place]? = some log) :
    bound data logs (place + 1) = bound data logs place + log.events.toNat * 16 := by
  rw [bound, List.take_add_one, listed, eventsStop_append]
  rfl

theorem bound_le (data : List UInt8) (logs : List LogHeader) (place : Nat) :
    bound data logs place ≤ eventsStop (eventsStart (declaredSize data).toNat) logs := by
  have split := eventsStop_append (eventsStart (declaredSize data).toNat) (logs.take place)
    (logs.drop place)
  rw [List.take_append_drop] at split
  rw [split]
  exact le_eventsStop ..

theorem getElem?_declaredLogs (start : Nat) (logs : List LogHeader) (place : Nat) :
    (declaredLogs base start logs)[place]?
      = logs[place]?.map fun log =>
        ⟨log.id, ⟨base + eventsStop start (logs.take place), log.events.toNat⟩⟩ := by
  induction logs generalizing start place with
  | nil => rfl
  | cons log rest onward =>
    cases place with
    | zero => rfl
    | succ place =>
      rw [declaredLogs, List.getElem?_cons_succ, List.getElem?_cons_succ, onward,
        List.take_succ_cons, eventsStop]

/-- The runs lie behind each other. -/
theorem mem_declaredLogs {start : Nat} {logs : List LogHeader} {log : LogView}
    (member : log ∈ declaredLogs base start logs) :
    base + start ≤ log.run.start ∧ log.run.stop ≤ base + eventsStop start logs := by
  induction logs generalizing start with
  | nil => cases member
  | cons first rest onward =>
    have behind := le_eventsStop (start + first.events.toNat * 16) rest
    rw [eventsStop]
    rcases List.mem_cons.mp member with rfl | later
    · refine ⟨Nat.le_refl _, ?_⟩
      show base + start + first.events.toNat * 16 ≤ _
      omega
    · obtain ⟨above, below⟩ := onward later
      exact ⟨by omega, below⟩

theorem length_declaredLogs (base start : Nat) (logs : List LogHeader) :
    (declaredLogs base start logs).length = logs.length := by
  induction logs generalizing start with
  | nil => rfl
  | cons log rest onward => rw [declaredLogs, List.length_cons, List.length_cons, onward]

theorem pairwise_declaredLogs (base start : Nat) (logs : List LogHeader) :
    (declaredLogs base start logs).Pairwise fun earlier later =>
      earlier.run.stop ≤ later.run.start := by
  induction logs generalizing start with
  | nil => exact List.Pairwise.nil
  | cons log rest onward =>
    refine List.Pairwise.cons (fun later member => ?_) (onward _)
    have above := (mem_declaredLogs member).1
    show base + start + log.events.toNat * 16 ≤ later.run.start
    omega

/-- A dump that is found has a header that lies inside it and logs that are found. -/
theorem view_eq_ok (small : data.length < 2 ^ 64) {found : DumpView}
    (accepted : view base data = .ok found) :
    16 + (declaredSize data).toNat ≤ data.length
      ∧ ∃ header logs, DumpHeader.read? (declaredHeader data) = some header
        ∧ viewLogs base data.length (eventsOffset (declaredSize data)) header.logs = .ok logs
        ∧ found = ⟨header.session, logs⟩ := by
  have length := toNat_toUInt64_of_lt (show data.length < 18446744073709551616 by omega)
  unfold view at accepted
  dsimp only at accepted
  split at accepted
  · cases accepted
  · split at accepted
    · cases accepted
    · split at accepted
      · cases accepted
      · rename_i covered
        split at accepted
        · cases accepted
        · rename_i forward
          have inside : 16 + (declaredSize data).toNat ≤ data.length := by
            rw [UInt64.lt_iff_toNat_lt, UInt64.toNat_add] at forward covered
            rw [length] at covered
            have bounded := (declaredSize data).toNat_lt
            simp only [preambleSize, UInt64.reduceToNat] at forward covered
            omega
          refine ⟨inside, ?_⟩
          cases read : DumpHeader.read? (declaredHeader data) with
          | none =>
            rw [read] at accepted
            cases accepted
          | some header =>
            rw [read] at accepted
            dsimp only at accepted
            rw [bind_eq_ok] at accepted
            obtain ⟨logs, listed, same⟩ := accepted
            cases same
            exact ⟨header, logs, rfl, listed, rfl⟩

/-- **A dump that is accepted exposes its own events and nothing else.**  Let memory hold some bytes.
Reading them as a dump comes to the same as finding the runs of its logs and reading these in memory.
If the runs are found, then they belong to the logs of a header that reads: the run of each log starts
where the one before it ends, counted without wrapping around, and the first one where the header
ends, rounded up to a multiple of sixteen bytes.  Each run ends inside the bytes and shows the events
that these hold there.  No two runs overlap, and none leaves the bytes. -/
theorem decode_exposes_exactly (data : List UInt8) (memory : Nat → UInt8) (base : Nat)
    (held : Memory.Holds memory base data) :
    decode data = (view base data).map (DumpView.read memory)
    ∧ ∀ found, view base data = .ok found →
      ∃ header, DumpHeader.read? (declaredHeader data) = some header
        ∧ found.session = header.session ∧ found.logs.length = header.logs.length
        ∧ (∀ place log declared, found.logs[place]? = some log →
          header.logs[place]? = some declared →
          log = ⟨declared.id, ⟨base + bound data header.logs place, declared.events.toNat⟩⟩
          ∧ bound data header.logs (place + 1)
            = bound data header.logs place + declared.events.toNat * 16
          ∧ bound data header.logs (place + 1) ≤ data.length
          ∧ Event.bytes (log.run.events memory)
            = (data.drop (bound data header.logs place)).take (declared.events.toNat * 16))
        ∧ found.logs.Pairwise (fun earlier later => earlier.run.stop ≤ later.run.start)
        ∧ ∀ log ∈ found.logs, base ≤ log.run.start ∧ log.run.stop ≤ base + data.length := by
  refine ⟨decode_eq_view held, fun found accepted => ?_⟩
  have signed := held.signed
  obtain ⟨inside, header, logs, read, listed, rfl⟩ := view_eq_ok (by omega) accepted
  have start : (eventsOffset (declaredSize data)).toNat
      = eventsStart (declaredSize data).toNat := by
    have same := toNat_eventsOffset
      (show (declaredSize data).toNat + 31 < 18446744073709551616 by omega)
    rwa [Nat.toUInt64_eq, UInt64.ofNat_toNat] at same
  obtain ⟨rfl, fits⟩ := viewLogs_eq_ok held.positive held.inside listed
  rw [start] at fits ⊢
  refine ⟨header, read, rfl, length_declaredLogs .., ?_, pairwise_declaredLogs .., ?_⟩
  · intro place log declared shown named
    dsimp only at shown
    rw [getElem?_declaredLogs, named, Option.map_some, Option.some.injEq] at shown
    subst shown
    have next := bound_succ data named
    have ends : bound data header.logs (place + 1) ≤ data.length := by
      have some : header.logs ≠ [] := List.ne_nil_of_mem (List.mem_of_getElem? named)
      exact Nat.le_trans (bound_le data header.logs (place + 1)) (fits.resolve_left some)
    refine ⟨rfl, next, ends, ?_⟩
    rw [next] at ends
    show Event.bytes (readEvents declared.events.toNat
      (EventRun.bytes memory ⟨base + bound data header.logs place, declared.events.toNat⟩)) = _
    rw [bytes_eq_of_holds held ends, bytes_readEvents]
    rw [List.length_take, List.length_drop]
    omega
  · intro log member
    obtain ⟨above, below⟩ := mem_declaredLogs member
    have some : header.logs ≠ [] := by
      rintro none
      rw [none] at member
      cases member
    have ends := fits.resolve_left some
    exact ⟨by omega, by omega⟩

/-- A header with three logs, of one event, of none and of two. -/
def threeHeader : DumpHeader := ⟨.zero, [⟨.zero, 1⟩, ⟨.zero, 0⟩, ⟨.zero, 2⟩]⟩

/-- A dump with this header, twelve bytes of padding and the events. -/
def threeLogs : List UInt8 :=
  preamble threeHeader.write.length
    ++ (threeHeader.write ++ (List.replicate 12 0 ++ (List.range 48).map UInt8.ofNat))

/-- The dump at address `0x1000` and zeros around it. -/
def aroundThreeLogs (address : Nat) : UInt8 := (threeLogs[address - 0x1000]?).getD 0

/-- Its runs. -/
def threeRuns : DumpView :=
  ⟨.zero, [⟨.zero, ⟨4208, 1⟩⟩, ⟨.zero, ⟨4224, 0⟩⟩, ⟨.zero, ⟨4224, 2⟩⟩]⟩

/-- The last log lies in the last bytes of the dump, directly behind the first one. -/
theorem decode_exposes_exactly_three :
    Memory.Holds aroundThreeLogs 0x1000 threeLogs ∧ threeLogs.length = 160
      ∧ view 0x1000 threeLogs = .ok threeRuns
      ∧ ∃ log, threeRuns.logs[2]? = some log ∧ log.run = ⟨0x1000 + 128, 2⟩
        ∧ Event.bytes (log.run.events aroundThreeLogs) = threeLogs.drop 128 := by
  have held : Memory.Holds aroundThreeLogs 0x1000 threeLogs := by
    refine ⟨by decide, by decide +kernel, by decide +kernel, fun place within => ?_⟩
    rw [aroundThreeLogs, Nat.add_sub_cancel_left, List.getElem?_eq_getElem within, Option.getD_some]
  have found : view 0x1000 threeLogs = .ok threeRuns := by
    have shown : (view 0x1000 threeLogs).toOption = some threeRuns := by decide +kernel
    cases accepted : view 0x1000 threeLogs with
    | error failure =>
      rw [accepted] at shown
      cases shown
    | ok found =>
      rw [accepted] at shown
      exact congrArg Except.ok (Option.some.inj shown)
  have read : DumpHeader.read? (declaredHeader threeLogs) = some threeHeader := by decide +kernel
  obtain ⟨-, exposed⟩ := decode_exposes_exactly threeLogs aroundThreeLogs 0x1000 held
  obtain ⟨header, named, -, -, shown, -⟩ := exposed _ found
  rw [read, Option.some.injEq] at named
  subst named
  obtain ⟨-, -, -, bytes⟩ := shown 2 ⟨.zero, ⟨4224, 2⟩⟩ ⟨.zero, 2⟩ rfl rfl
  refine ⟨held, by decide +kernel, found, _, rfl, rfl, bytes.trans ?_⟩
  decide +kernel

end Dump

end HeapAudit
