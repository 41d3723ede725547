import HeapAudit.Proofs.Dump.RoundTrip
import HeapAudit.Proofs.Recording.Buffer
import HeapAudit.Proofs.Recording.Framing
import HeapAudit.Proofs.Replay.Idempotence
import HeapAudit.Proofs.Session.Chronicle
import Mathlib.Algebra.Order.BigOperators.Group.List
import Mathlib.Algebra.Order.Group.Nat

/-!
# Replays of dumps

The pending events of a session can be dumped and replayed elsewhere.  A dump holds one
run of events for each log, the sealed half in front of the active one, while a cycle
replays the halves as segments of their own.  The runs are read as the halves are, as
long as no sealed half ends in the middle of a pair (`Frame.Whole`), and so the replay of a
dump comes to what the next cycle comes to (`Session.offline_agrees`).

The dump of a session is never too large for its sizes to wrap around: what a log takes in
it, with its part of the header, is no more than its region takes in memory, and the
regions of distinct logs lie apart.
-/

namespace HeapAudit

set_option autoImplicit false

/-! ## The size of a dump -/

theorem Cbor.length_head_le (major : UInt8) (argument : UInt64) :
    (Cbor.head major argument).length ≤ 9 := by
  unfold Cbor.head
  dsimp only
  repeat' split
  all_goals simp [Cbor.length_argumentBytes]

namespace Dump

/-- A dump takes at most 29 bytes for each log beside its events, and 60 bytes besides. -/
theorem extent_le (logs : List (List Event)) :
    extent logs ≤ 60 + (logs.map fun events => events.length * 16 + 29).sum := by
  have head := Cbor.length_head_le 4 logs.length.toUInt64
  have body : (logs.map fun events => 20 + (Cbor.writeUnsigned events.length.toUInt64).length).sum
      + logs.flatten.length * 16 ≤ (logs.map fun events => events.length * 16 + 29).sum := by
    induction logs with
    | nil => exact Nat.le_refl 0
    | cons events rest onward =>
      have one := Cbor.length_head_le 0 events.length.toUInt64
      have rest := onward (Cbor.length_head_le 4 rest.length.toUInt64)
      simp only [List.map_cons, List.sum_cons, List.flatten_cons, List.length_append,
        Cbor.writeUnsigned] at rest ⊢
      omega
  simp only [extent, eventsStart, headerLength, Cbor.writeArray]
  omega

end Dump

namespace Log

/-- The number of bytes of the region of a log. -/
def footprint (log : Log) : Nat := 2 * log.halfBytes.toNat + 8192

/-- What a log takes in a dump is no more than what it takes in memory. -/
theorem Sound.dumped_le {log : Log} (sound : log.Sound) :
    log.segments.flatten.length * 16 + 29 ≤ log.footprint := by
  have filled := sound.spacious.toNat_slotsIn_succ
  have active := sound.counted log.active
  have other := sound.counted log.active.other
  simp only [capacity] at active other
  have length : ∀ side, (log.half side).events.length = (log.half side).count.toNat :=
    fun side => Half.length_take ..
  cases closed : log.isClosed with
  | true =>
    rw [segments_of_closed closed, footprint]
    exact Nat.le_add_left_of_le (by decide)
  | false =>
    cases isSealed : log.isSealed with
    | false =>
      rw [segments_of_unsealed closed isSealed, footprint, activeEvents]
      simp only [List.flatten_cons, List.flatten_nil, List.append_nil, length]
      omega
    | true =>
      rw [segments_of_sealed closed isSealed, footprint, activeEvents]
      simp only [List.flatten_cons, List.flatten_nil, List.append_nil, List.length_append, length]
      omega

end Log

namespace Bank

variable {bank : Bank}

/-- The regions up to a log end where its own one ends, or earlier. -/
theorem Sound.sum_footprint_le_stop (sound : bank.Sound) (last : Nat)
    (known : last < bank.logs.size) :
    ((List.range (last + 1)).map fun id => (bank.log id).footprint).sum
      ≤ (bank.log last).stop := by
  induction last with
  | zero =>
    have stop : (bank.log 0).footprint ≤ (bank.log 0).stop := by
      rw [Log.footprint, Log.stop, Nat.add_assoc]
      exact Nat.le_add_left ..
    simpa using stop
  | succ last onward =>
    have before := onward (Nat.lt_of_succ_lt known)
    have apart := sound.apart last (last + 1) (Nat.lt_succ_self last) known
    have stop : (bank.log (last + 1)).stop
        = (bank.log (last + 1)).base.toNat + (bank.log (last + 1)).footprint := by
      rw [Log.stop, Log.footprint, Nat.add_assoc]
    rw [List.range_succ, List.map_append, List.sum_append, List.map_singleton, List.sum_singleton,
      stop]
    exact Nat.add_le_add_right (Nat.le_trans before apart) _

/-- Distinct logs take no more than the addresses handed out so far. -/
theorem Sound.sum_footprint_le (sound : bank.Sound) {ids : List LogId}
    (known : ∀ id ∈ ids, id < bank.logs.size) (distinct : ids.Nodup) :
    (ids.map fun id => (bank.log id).footprint).sum ≤ bank.nextBase.toNat := by
  have all : ((List.range bank.logs.size).map fun id => (bank.log id).footprint).sum
      ≤ bank.nextBase.toNat := by
    cases size : bank.logs.size with
    | zero => exact Nat.zero_le _
    | succ last =>
      have inside : last < bank.logs.size := size ▸ Nat.lt_succ_self last
      exact Nat.le_trans (sound.sum_footprint_le_stop last inside) (sound.below last inside)
  have inRange : ids ⊆ List.range bank.logs.size := by
    intro id member
    exact List.mem_range.mpr (known id member)
  obtain ⟨others, permuted, sublist⟩ := List.subperm_of_subset distinct inRange
  have same : (ids.map fun id => (bank.log id).footprint).sum
      = (others.map fun id => (bank.log id).footprint).sum :=
    (permuted.symm.map _).sum_eq
  rw [same]
  exact Nat.le_trans ((sublist.map _).sum_le_sum fun _ _ => Nat.zero_le _) all

end Bank

/-- Registering a log does not touch it. -/
theorem Bank.Sound.register {bank : Bank} (sound : bank.Sound) (id : LogId) :
    (bank.register id).Sound :=
  sound.congr rfl rfl

namespace Session

/-- The sizes of a dump of the pending events do not wrap around. -/
theorem extent_pendingEvents_lt {bank : Bank} (sound : bank.Sound)
    (known : ∀ id ∈ bank.registered, id < bank.logs.size) (distinct : bank.registered.Nodup) :
    Dump.extent (pendingEvents bank) < 18446744073709551616 := by
  have small := sound.limited
  have openKnown : ∀ id ∈ openLogs bank, id < bank.logs.size := by
    intro id member
    exact known id (List.mem_of_mem_filter member)
  have regions := sound.sum_footprint_le openKnown (distinct.filter _)
  have dumped : ((pendingEvents bank).map fun events => events.length * 16 + 29).sum
      ≤ ((openLogs bank).map fun id => (bank.log id).footprint).sum := by
    rw [pendingEvents, List.map_map]
    apply List.sum_le_sum
    intro id member
    exact (sound.logs id (openKnown id member)).dumped_le
  have size := Dump.extent_le (pendingEvents bank)
  omega

end Session

/-! ## Runs of events and their parts -/

/-- A replay asks neither where a frame stands nor where a segment ends. -/
theorem Replay.run_of_frames {config : Config} {segments others : List (List Event)}
    (read : (frames config others).map Frame.unplaced
      = (frames config segments).map Frame.unplaced)
    (length : others.flatten.length = segments.flatten.length) (table : Table) :
    run config table others = run config table segments := by
  have allocated : ∀ segments, allocations config segments
      = ((frames config segments).map Frame.unplaced).filterMap Frame.allocation? := by
    intro segments
    rw [List.filterMap_map]
    rfl
  have done : ∀ segments, effects config segments
      = ((frames config segments).map Frame.unplaced).map Frame.effect := by
    intro segments
    rw [List.map_map]
    rfl
  rw [run_eq_conclude, run_eq_conclude, allocated, allocated, done, done, read]
  cases (((frames config segments).map Frame.unplaced).map Frame.effect).foldlM
      (Progress.perform config)
      ⟨(((frames config segments).map Frame.unplaced).filterMap Frame.allocation?).foldl
        Table.place table, ∅, {}⟩ with
  | ok progress => simp only [conclude, finish, length]
  | error halt => rfl

/-- A pair that is cut in two is not read as a pair. -/
example : (Replay.run .plain (.empty 16) [[Event.encode .copyArray ⟨0x10000110, 0x10000210⟩,
      Event.encode .copyArrayLength ⟨3, 0⟩]]).outcome
    ≠ (Replay.run .plain (.empty 16) [[Event.encode .copyArray ⟨0x10000110, 0x10000210⟩],
      [Event.encode .copyArrayLength ⟨3, 0⟩]]).outcome := by
  decide +kernel

/-- A log whose sealed half does not end in the middle of a pair. -/
def Log.Unbroken (range : HeapRange) (log : Log) : Prop :=
  log.isSealed = true → Frame.Whole range (log.half log.active.other).events

/-- The halves of a log are read as the run that they form. -/
theorem Log.Unbroken.unplaced {range : HeapRange} {log : Log} (unbroken : log.Unbroken range) :
    (Frame.ofSlots range log.segments.flatten).map Frame.unplaced
      = (log.segments.flatMap (Frame.ofSlots range)).map Frame.unplaced := by
  cases closed : log.isClosed with
  | true =>
    rw [segments_of_closed closed]
    rfl
  | false =>
    cases isSealed : log.isSealed with
    | false => simp [segments_of_unsealed closed isSealed]
    | true =>
      rw [segments_of_sealed closed isSealed]
      simp only [List.flatten_cons, List.flatten_nil, List.append_nil, List.flatMap_cons,
        List.flatMap_nil, List.map_append]
      exact Frame.unplaced_ofSlots_append (unbroken isSealed) _

namespace Session

/-- **Dumped runs are replayed as the halves of the logs are.** -/
theorem run_pendingEvents {bank : Bank} {config : Replay.Config}
    (unbroken : ∀ id ∈ openLogs bank, (bank.log id).Unbroken config.range) (table : Table) :
    Replay.run config table (pendingEvents bank)
      = Replay.run config table (pendingSegments bank) := by
  rw [pendingEvents, pendingSegments]
  generalize openLogs bank = logs at unbroken
  apply Replay.run_of_frames
  · rw [Replay.frames, Replay.frames]
    induction logs with
    | nil => rfl
    | cons id rest onward =>
      have here := (unbroken id List.mem_cons_self).unplaced
      have behind := onward fun other member => unbroken other (List.mem_cons_of_mem _ member)
      rw [List.map_cons, List.flatMap_cons, List.map_append, here, behind, List.flatMap_cons,
        List.flatMap_append, List.map_append]
  · clear unbroken
    induction logs with
    | nil => rfl
    | cons id rest onward =>
      rw [List.map_cons, List.flatten_cons, List.length_append, onward, List.flatMap_cons,
        List.flatten_append, List.length_append]

end Session

/-! ## What a verification says of its replay -/

/-- A verdict about the same replay as another one. -/
def Verdict.Extends (verdict found : Verdict) : Prop :=
  found.stats = verdict.stats ∧ found.digest = verdict.digest

namespace Session

section Verification

variable {excused : Prop} (session : Session) (verdict : Verdict)

theorem ends_callVerifiers (verifiers : List Verifier) :
    (callVerifiers verifiers).Ends excused session fun _ _ => True := by
  induction verifiers generalizing session with
  | nil => exact .of_start rfl trivial
  | cons verifier rest onward =>
    refine .pass (Work.start_modify ..) ?_
    cases verifier.problem with
    | some problem => exact .of_start rfl trivial
    | none => exact onward _

theorem ends_verifyExternal (subsystems : List Subsystem) :
    (verifyExternal verdict subsystems).Ends excused session fun found _ =>
      verdict.Extends found := by
  induction subsystems generalizing session verdict with
  | nil => exact .of_start rfl ⟨rfl, rfl⟩
  | cons subsystem rest onward =>
    have read : auditor.start session = (.ok session.consumer, session) := rfl
    refine .pass read ?_
    dsimp only
    split
    · exact onward session verdict
    · refine .bind (ends_callVerifiers session _) ?_
      intro problem reached _
      cases problem with
      | some problem => exact .of_start rfl ⟨rfl, rfl⟩
      | none => exact onward reached { verdict with verified := verdict.verified.add subsystem }

/-- The checks behind the validation cannot fail. -/
theorem ends_verifyBehindHeap (selected : SubsystemSet) :
    Work.Ends (do
      let verdict ← if selected.has .threads then verifyThreads verdict else pure verdict
      verifyExternal verdict Subsystem.external)
      excused session fun found _ => verdict.Extends found := by
  split
  · exact .pass rfl (ends_verifyExternal _ _ _)
  · exact .pass rfl (ends_verifyExternal _ _ _)

/-- The heap is to be validated, and cannot be. -/
def Halts (session : Session) : Prop :=
  session.consumer.config.subsystems.has .heap = true
    ∧ ∃ halt, Validation.validate session.consumer.heap session.consumer.table = .error halt

/-- Going through the subsystems keeps what a verdict says of the replay, and it fails only if the
heap cannot be validated. -/
theorem ends_verifySelected_of_halts :
    (verifySelected verdict).Ends (Halts session) session fun found _ =>
      verdict.Extends found := by
  have read : auditor.start session = (.ok session.consumer, session) := rfl
  refine .pass read ?_
  dsimp only
  split
  · rename_i selected
    cases validated : Validation.validate session.consumer.heap session.consumer.table with
    | error halt =>
      have stopped : (verifyHeap verdict).start session
          = (.error (.abort halt.cause), ((report halt.reached.diagnostics).start session).2) := by
        rw [verifyHeap, Work.start_bind, read]
        dsimp only
        rw [validated]
        rfl
      rw [Work.Ends, Work.start_bind, stopped]
      exact ⟨selected, halt, validated⟩
    | ok inspection =>
      exact .pass (start_verifyHeap validated verdict) (ends_verifyBehindHeap _ _ _)
  · exact .pass rfl (ends_verifyBehindHeap _ _ _)

/-- A verification whose replay is not stopped tells its counts and the digest of the table it
leaves, or the heap cannot be validated. -/
theorem ends_verify {session : Session} {stats : Replay.Stats}
    (finished : (replayed session).outcome = .ok stats) :
    verify.Ends (Halts (settle session)) session fun verdict _ =>
      verdict.stats = stats ∧ verdict.digest = (replayed session).table.digest := by
  rw [Work.Ends, verify, start_cycle true finished]
  refine Work.Ends.pass rfl (Work.Ends.pass rfl ?_)
  exact ends_verifySelected_of_halts _ _

/-- A verification leaves the table that its replay comes to, even if it is stopped. -/
theorem table_verify (session : Session) :
    (verify.start session).2.consumer.table = (replayed session).table := by
  cases outcome : (replayed session).outcome with
  | ok stats =>
    obtain ⟨diagnostics, calls, reached⟩ := sameGround_of_replays ⟨stats, outcome⟩
      (Prod.eta (verify.start session)).symm
    rw [reached]
    rfl
  | error cause =>
    rw [verify, cycle, Work.start_bind, Work.start_get]
    dsimp only
    rw [Work.start_bind, start_reconstruct, outcome]
    rfl

end Verification

/-! ## Dumps and cycles -/

/-- Verifying a session comes to what a replay came to: the table gets the same nodes with the same
edges, and the verdict tells the same counts and the same digest.  A replay that is stopped aborts
the verification for the same cause; apart from that it fails only if the heap cannot be
validated. -/
structure Foretells (replay : Replay.Replayed) (session : Session) : Prop where
  nodes : (verify.start session).2.consumer.table.nodes = replay.table.nodes
  digest : (verify.start session).2.consumer.table.digest = replay.table.digest
  stopped : ∀ cause, replay.outcome = .error cause →
    (verify.start session).1 = .error (.abort cause)
  finished : ∀ stats, replay.outcome = .ok stats →
    (∃ verdict, (verify.start session).1 = .ok verdict ∧ verdict.stats = stats
      ∧ verdict.digest = replay.table.digest)
    ∨ (∃ failure, (verify.start session).1 = .error failure) ∧ Halts (verify.start session).2

/-- The replay of the open logs foretells the verification. -/
theorem foretells_replayed {session : Session} {replay : Replay.Replayed}
    (outcome : replay.outcome = (replayed session).outcome)
    (nodes : replay.table.nodes = (replayed session).table.nodes) : Foretells replay session := by
  have table := table_verify session
  have digest : replay.table.digest = (replayed session).table.digest :=
    Replay.digest_congr nodes
  refine ⟨?_, ?_, ?_, ?_⟩
  · rw [table, nodes]
  · rw [table, digest]
  · intro cause stopped
    rw [outcome] at stopped
    exact start_cycle_of_error true stopped
  · intro stats finished
    rw [outcome] at finished
    rw [digest]
    obtain ⟨verdict, reached, started, agrees⟩ | ⟨⟨failure, reached, started⟩, halts⟩ :=
      (ends_verify finished).cases
    · exact .inl ⟨verdict, by rw [started], agrees⟩
    · obtain ⟨diagnostics, calls, same⟩ := sameGround_of_replays ⟨stats, finished⟩ started
      refine .inr ⟨⟨failure, by rw [started]⟩, ?_⟩
      rw [started, same]
      exact halts

/-- The replay of a dump of the pending events foretells the verification. -/
theorem foretells_dump (session : Session) (empty : session.consumer.table.nodes = ∅)
    (unbroken : ∀ id ∈ openLogs session.bank,
      (session.bank.log id).Unbroken session.consumer.heap.range)
    {saved : Dump} (segments : saved.segments = pendingEvents session.bank) :
    Foretells (saved.replay (replayConfig session.consumer) session.consumer.table.arrayBase)
      session := by
  have within : session.consumer.table.Within session.consumer.table.arrayBase
      (Replay.placedAt (replayConfig session.consumer) (pendingSegments session.bank)) := by
    refine ⟨rfl, ?_⟩
    intro start held
    rw [Table.find?, empty, WordMap.find?_empty] at held
    exact absurd rfl held
  have offline : saved.replay (replayConfig session.consumer) session.consumer.table.arrayBase
      = Replay.run (replayConfig session.consumer) (.empty session.consumer.table.arrayBase)
        (pendingSegments session.bank) := by
    rw [Dump.replay, segments]
    exact run_pendingEvents unbroken _
  obtain ⟨outcome, nodes⟩ := Replay.run_forgets (replayConfig session.consumer) within
  rw [offline]
  exact foretells_replayed outcome.symm nodes.symm

/-- **Offline and online replay agree.**  Take a session whose table is empty and whose registered
logs, distinct ones of a sound bank as in any session, have any content, except that no sealed half
ends in the middle of a pair.  Dumping and capturing fail only if there is no store of the size of
the dump; what was written is read back unless it has more logs than a header may list.  Replaying
it into a new table then comes to what verifying the session comes to next, although the dump has
one run for each log and the cycle one segment for each half.  Neither dumping nor capturing changes
a log or the table. -/
theorem offline_agrees (session : Session) (sound : session.bank.Sound)
    (known : ∀ id ∈ session.bank.registered, id < session.bank.logs.size)
    (distinct : session.bank.registered.Nodup) (empty : session.consumer.table.nodes = ∅)
    (unbroken : ∀ id ∈ openLogs session.bank,
      (session.bank.log id).Unbroken session.consumer.heap.range) :
    let logs := pendingEvents session.bank
    let store := (Store.create session.bank.memory
      (Dump.sizeFor (Dump.headerLength logs) logs)).mapError Failure.refusal
    let offline (saved : Dump) :=
      saved.replay (replayConfig session.consumer) session.consumer.table.arrayBase
    (∃ bytes saved, saved.segments = logs
      ∧ (dump.start session).1 = store.map (fun _ => (session.consumer.random.draw.1, bytes))
      ∧ (capture.start session).1 = store.bind (fun _ => Dump.load bytes)
      ∧ Dump.load bytes = (if logs.length ≤ Cbor.maxElements then .ok saved
        else .error (.refusal .headerMalformed))
      ∧ Foretells (offline saved) (dump.start session).2
      ∧ Foretells (offline saved) (capture.start session).2)
    ∧ (dump.start session).2.bank = session.bank
    ∧ (dump.start session).2.consumer.table = session.consumer.table
    ∧ (capture.start session).2.bank = session.bank
    ∧ (capture.start session).2.consumer.table = session.consumer.table := by
  have small := extent_pendingEvents_lt sound known distinct
  obtain ⟨bytes, saved, segments, loaded, decoded, stored⟩ :=
    Dump.save_load small session.consumer.random
  have foretells : ∀ random, Foretells
      (saved.replay (replayConfig session.consumer) session.consumer.table.arrayBase)
      { session with consumer := { session.consumer with random := random } } := by
    intro random
    exact foretells_dump { session with consumer := { session.consumer with random := random } }
      empty unbroken segments
  dsimp only
  rw [start_dump, start_capture]
  refine ⟨⟨bytes, saved, segments, stored _, ?_, loaded, foretells _, foretells _⟩,
    rfl, rfl, rfl, rfl⟩
  show (Dump.save _ _ _).1.bind (fun written => Dump.decode written.2) = _
  rw [stored]
  cases (Store.create _ _).mapError Failure.refusal with
  | error failure => rfl
  | ok store => exact decoded

/-- Two arrays and a copy between them are sealed, then a store to the first array is appended. -/
def halvedTasks : List Bank.Task :=
  [.create 1, .act 0 (.append (Event.encode .newArray ⟨3, 0x10000100⟩)),
    .act 0 (.append (Event.encode .newArray ⟨3, 0x10000200⟩)),
    .act 0 (.appendPair (Event.encode .copyArray ⟨0x10000110, 0x10000210⟩)
      (Event.encode .copyArrayLength ⟨3, 0⟩)),
    .act 0 .flip, .act 0 (.append ⟨0x10000200, 0x10000110⟩)]

/-- A session with one log, in two halves. -/
def halved : Session :=
  { Session.least .empty ⟨0x10000000, 0x20000000⟩ with
    bank := ((Bank.empty 0x100000000).performAll halvedTasks).2.register 0 }

/-- The five events are captured as one run and replayed as two segments. -/
theorem offline_agrees_halved :
    (pendingSegments halved.bank).map List.length = [4, 1]
      ∧ ∃ saved verdict, (capture.start halved).1 = .ok saved
        ∧ saved.segments.map List.length = [5]
        ∧ (verify.start (capture.start halved).2).1 = .ok verdict
        ∧ verdict.stats.events = 5 ∧ verdict.stats.nodes = 2 ∧ verdict.stats.edges = 1 := by
  have sound : halved.bank.Sound :=
    (Bank.performAll_refines halvedTasks (Bank.usable_empty _)).2.sound.register 0
  have known : ∀ id ∈ halved.bank.registered, id < halved.bank.logs.size := by decide +kernel
  have distinct : halved.bank.registered.Nodup := by decide +kernel
  have listed : openLogs halved.bank = [0] := by decide +kernel
  have whole : Frame.Whole halved.consumer.heap.range
      ((halved.bank.log 0).half (halved.bank.log 0).active.other).events := by decide +kernel
  have unbroken : ∀ id ∈ openLogs halved.bank,
      (halved.bank.log id).Unbroken halved.consumer.heap.range := by
    intro id member isSealed
    rw [listed, List.mem_singleton] at member
    subst member
    exact whole
  obtain ⟨⟨bytes, saved, segments, -, captured, loaded, -, foretells⟩, -⟩ :=
    offline_agrees halved sound known distinct rfl unbroken
  have store : Store.create halved.bank.memory
      (Dump.sizeFor (Dump.headerLength (pendingEvents halved.bank)) (pendingEvents halved.bank))
      = .ok ⟨List.replicate 144 0⟩ := by decide +kernel
  have few : (pendingEvents halved.bank).length ≤ Cbor.maxElements := by decide +kernel
  have outcome : (Replay.run (replayConfig halved.consumer) (.empty HeapObject.arrayBase)
      (pendingEvents halved.bank)).outcome = .ok { events := 5, nodes := 2, edges := 1 } := by
    decide +kernel
  have unselected : (verify.start (capture.start halved).2).2.consumer.config.subsystems.has .heap
      = false := by decide +kernel
  rw [store] at captured
  rw [if_pos few] at loaded
  have lengths : saved.segments.map List.length = [5] := by
    rw [segments]
    decide +kernel
  rw [← segments] at outcome
  refine ⟨by decide +kernel, saved, ?_⟩
  rcases foretells.finished _ outcome with ⟨verdict, verified, stats, -⟩ | ⟨-, selected, -⟩
  · exact ⟨verdict, captured.trans loaded, lengths, verified, by rw [stats], by rw [stats],
      by rw [stats]⟩
  · rw [unselected] at selected
    cases selected

end Session

end HeapAudit
