import HeapAudit.Proofs.Session.Mutators

/-!
# Every event is replayed once

This module follows the events of all mutators through any run of a session in strict
mode: recorders are opened and closed, events are recorded, the heap graph is verified and
dumped, in any order.

The invariant that carries this (`World.Orderly`) says where the events that are still to
be replayed are: in one registered log or snapshot of the mutator, and no two mutators share
one.  Each step of a session keeps it, and so do the steps inside a recording: appending,
sealing and draining.
-/

namespace HeapAudit

set_option autoImplicit false

/-! ## Worlds -/

/-- A chronicled session and its mutators, the oldest first. -/
structure World where
  chronicle : Chronicle
  mutators : List Mutator := []

namespace World

/-- The bank of logs. -/
abbrev bank (world : World) : Bank := world.chronicle.bank

/-- The batches replayed so far. -/
abbrev batches (world : World) : List Batch := world.chronicle.consumer.batches

/-- The choices made for the session. -/
abbrev config (world : World) : SessionConfig := world.chronicle.consumer.auditor.config

/-- The logs of the open recorders. -/
def openLogs (mutators : List Mutator) : List LogId :=
  (mutators.filter Mutator.isRecording).map Mutator.log

/-- **Where everything is**, also in the middle of a recording. -/
structure Orderly (world : World) : Prop where
  strict : world.config.checksLiveHeap = true
  instrumented : world.config.isInstrumented = true
  bank : world.bank.Orderly
  registry : world.bank.ordinary = openLogs world.mutators
  past : ∀ batch ∈ world.batches, ∀ entry ∈ batch, entry.1 < world.bank.logs.size
  apart : (world.mutators.map Mutator.sources).Pairwise fun some others =>
    ∀ id ∈ some, id ∉ others
  placed : ∀ mutator ∈ world.mutators, mutator.Placed world.bank
  accounted : ∀ mutator ∈ world.mutators, mutator.Accounted world.chronicle

/-- Between steps no log is sealed either. -/
structure Settled (world : World) : Prop extends Orderly world where
  unsealed : ∀ id ∈ world.bank.registered, (world.bank.log id).isSealed = false

/-- A cycle settles the world. -/
theorem Orderly.settle {chronicle reached : Chronicle} {mutators : List Mutator}
    (orderly : Orderly ⟨chronicle, mutators⟩) (settles : chronicle.Settles reached) :
    Settled ⟨reached, mutators⟩ where
  strict := by
    show reached.consumer.auditor.config.checksLiveHeap = true
    rw [settles.config]
    exact orderly.strict
  instrumented := by
    show reached.consumer.auditor.config.isInstrumented = true
    rw [settles.config]
    exact orderly.instrumented
  bank := by
    show reached.bank.Orderly
    rw [settles.bank]
    exact orderly.bank.drain
  registry := by
    show reached.bank.ordinary = _
    rw [settles.bank, orderly.bank.ordinary_drained]
    exact orderly.registry
  past := by
    show ∀ batch ∈ reached.consumer.batches, ∀ entry ∈ batch, entry.1 < reached.bank.logs.size
    rw [settles.batches, settles.bank, orderly.bank.drains.size]
    intro batch member entry inside
    rcases List.mem_append.mp member with old | new
    · exact orderly.past batch old entry inside
    · obtain rfl := List.mem_singleton.mp new
      obtain ⟨id, listed, rfl⟩ := List.mem_map.mp inside
      rw [orderly.bank.openLogs] at listed
      exact orderly.bank.known id listed
  apart := orderly.apart
  placed := by
    intro mutator member
    show mutator.Placed reached.bank
    rw [settles.bank]
    exact (orderly.placed mutator member).drain orderly.bank
  accounted := fun mutator member =>
    (orderly.accounted mutator member).settle (orderly.placed mutator member) orderly.bank settles
  unsealed := by
    show ∀ id ∈ reached.bank.registered, (reached.bank.log id).isSealed = false
    rw [settles.bank]
    intro id member
    obtain ⟨before, -, empty⟩ := orderly.bank.log_drained_of_mem_drained member
    rw [empty, Log.isSealed_reset (orderly.bank.opened id before)]

/-! ## Recording -/

section Recording

variable {chronicle : Chronicle} {front back : List Mutator} {mutator : Mutator}

/-- The log of an open recorder is registered, and it is no snapshot. -/
theorem Orderly.registered_of_recording {mutators : List Mutator}
    (orderly : Orderly ⟨chronicle, mutators⟩) (member : mutator ∈ mutators)
    (recording : mutator.fate = .recording) :
    mutator.log ∈ chronicle.bank.registered ∧ chronicle.bank.isSnapshot mutator.log = false := by
  have listed : mutator.log ∈ openLogs mutators :=
    List.mem_map.mpr ⟨mutator, List.mem_filter.mpr ⟨member, by simp [Mutator.isRecording, recording]⟩, rfl⟩
  rw [← orderly.registry] at listed
  exact Bank.mem_ordinary.mp listed

/-- What holds of a mutator and of those in front of it and behind it holds of all of them. -/
theorem forall_mutators {property : Mutator → Prop} (own : property mutator)
    (others : ∀ other, other ∈ front ∨ other ∈ back → property other) :
    ∀ other ∈ front ++ mutator :: back, property other := by
  intro other member
  rcases List.mem_append.mp member with inFront | rest
  · exact others other (.inl inFront)
  · rcases List.mem_cons.mp rest with rfl | inBack
    · exact own
    · exact others other (.inr inBack)

/-- No other mutator shares a log with the mutator. -/
theorem Orderly.separate (orderly : Orderly ⟨chronicle, front ++ mutator :: back⟩)
    {other : Mutator} (elsewhere : other ∈ front ∨ other ∈ back) :
    ∀ id ∈ other.sources, id ∉ mutator.sources := by
  have apart := orderly.apart
  rw [List.map_append, List.map_cons, List.pairwise_append, List.pairwise_cons] at apart
  obtain ⟨-, ⟨behind, -⟩, before⟩ := apart
  rcases elsewhere with inFront | inBack
  · exact before _ (List.mem_map_of_mem inFront) _ List.mem_cons_self
  · intro id source shared
    exact behind _ (List.mem_map_of_mem inBack) id shared source

theorem Orderly.setLog (orderly : Orderly ⟨chronicle, front ++ mutator :: back⟩)
    (recording : mutator.fate = .recording) {log : Log} (slots : List Event) (sound : log.Sound)
    (base : log.base = (chronicle.bank.log mutator.log).base)
    (halfBytes : log.halfBytes = (chronicle.bank.log mutator.log).halfBytes)
    (opened : log.isClosed = false)
    (grown : log.segments.flatten
      = (chronicle.bank.log mutator.log).segments.flatten ++ slots) :
    Orderly ⟨chronicle.setLog mutator.log log, front ++ mutator.extend slots :: back⟩ := by
  have present : mutator ∈ front ++ mutator :: back := by simp
  have registered := (orderly.registered_of_recording present recording).1
  have known := orderly.bank.known _ registered
  have before := orderly.bank.opened _ registered
  have accounts : ∀ other, other ∈ front ∨ other ∈ back →
      other.Accounted (chronicle.setLog mutator.log log) := by
    intro other elsewhere
    have accounted := orderly.accounted other (by simpa using elsewhere.imp_right .inr)
    refine ⟨fun kept => ?_, accounted.cut⟩
    have different : mutator.log ≠ other.holder := by
      intro same
      have shared := orderly.separate elsewhere _ other.holder_mem_sources
      rw [← same, Mutator.sources, recording] at shared
      exact shared List.mem_cons_self
    rw [Mutator.undrained, Station.setLog, Bank.log_modify_of_ne _ different]
    exact accounted.kept kept
  refine ⟨orderly.strict, orderly.instrumented, orderly.bank.modify sound base halfBytes opened, ?_, ?_, ?_, ?_, ?_⟩
  · refine orderly.registry.trans ?_
    simp [openLogs, Mutator.isRecording, Mutator.extend, recording]
  · intro batch member entry inside
    rw [World.bank, Station.setLog, Bank.size_modify]
    exact orderly.past batch member entry inside
  · have apart := orderly.apart
    rw [List.map_append, List.map_cons] at apart ⊢
    exact apart
  · refine forall_mutators ?_ fun other elsewhere => ?_
    · have placed := (orderly.placed mutator present).modify (fun _ => log) before
      exact ⟨placed.known, placed.only, placed.held, placed.gone⟩
    · exact (orderly.placed other (by simpa using elsewhere.imp_right .inr)).modify _ before
  · refine forall_mutators ?_ accounts
    have accounted := (orderly.accounted mutator present).kept (by simp [recording])
    have holder : (mutator.extend slots).holder = mutator.log := by
      simp [Mutator.extend, Mutator.holder, recording]
    have before : mutator.undrained chronicle.bank
        = (chronicle.bank.log mutator.log).segments.flatten := by
      rw [Mutator.undrained, Mutator.holder, recording]
    refine ⟨fun _ => ?_, fun lost => ?_⟩
    · rw [Mutator.undrained, holder, Station.setLog, Bank.log_modify_self _ known, grown,
        ← before, ← List.append_assoc]
      exact congrArg (· ++ slots) accounted
    · rw [Mutator.extend, recording] at lost
      cases lost

theorem Settled.activeEvents (settled : Settled ⟨chronicle, front ++ mutator :: back⟩)
    (recording : mutator.fate = .recording) :
    (chronicle.bank.log mutator.log).segments
      = [(chronicle.bank.log mutator.log).activeEvents] := by
  have registered := (settled.registered_of_recording (by simp) recording).1
  exact Log.segments_of_unsealed (settled.bank.opened _ registered) (settled.unsealed _ registered)

/-- The log of an open recorder is ready. -/
theorem Orderly.ready {mutators : List Mutator} (orderly : Orderly ⟨chronicle, mutators⟩)
    (member : mutator ∈ mutators) (recording : mutator.fate = .recording) :
    chronicle.bank.Ready mutator.log := by
  have registered := (orderly.registered_of_recording member recording).1
  exact ⟨orderly.bank.sound, orderly.bank.known _ registered, orderly.bank.opened _ registered⟩

/-- Sealing a log keeps the world orderly. -/
theorem Settled.flip (settled : Settled ⟨chronicle, front ++ mutator :: back⟩)
    (recording : mutator.fate = .recording) {log : Log}
    (gains : (chronicle.bank.log mutator.log).Gains [] log) :
    Orderly ⟨chronicle.setLog mutator.log log.flip, front ++ mutator :: back⟩ := by
  have ready := settled.ready (by simp) recording
  have sound := gains.sound ready.soundLog (ready.soundLog.counted _)
  have opened : log.isClosed = false := by rw [gains.isClosed, ready.opened]
  have same : mutator.extend [] = mutator := by
    rw [Mutator.extend, List.append_nil]
  have sealed := settled.toOrderly.setLog recording [] sound.flip
    (by rw [Log.base_flip, gains.base]) (by rw [Log.halfBytes_flip, gains.halfBytes])
    (by rw [Log.isClosed_flip, opened]) (by
      rw [Log.segments_flip opened, gains.activeEvents, settled.activeEvents recording]
      simp)
  rwa [same] at sealed

/-- Appending a record to a log settles the world with the record. -/
theorem Settled.append (settled : Settled ⟨chronicle, front ++ mutator :: back⟩)
    (recording : mutator.fate = .recording) {log : Log} {slots : List Event}
    (gains : (chronicle.bank.log mutator.log).Gains slots log)
    (fits : (chronicle.bank.log mutator.log).count.toNat + slots.length
      ≤ (chronicle.bank.log mutator.log).capacity.toNat) :
    Settled ⟨chronicle.setLog mutator.log log, front ++ mutator.extend slots :: back⟩ := by
  have ready := settled.ready (by simp) recording
  have registered := (settled.registered_of_recording (by simp) recording).1
  have opened : log.isClosed = false := by rw [gains.isClosed, ready.opened]
  have unsealed : log.isSealed = false := by
    rw [gains.isSealed]
    exact settled.unsealed _ registered
  have appended := settled.toOrderly.setLog recording slots (gains.sound ready.soundLog fits)
    gains.base gains.halfBytes opened (by
      rw [Log.segments_of_unsealed opened unsealed, gains.activeEvents,
        settled.activeEvents recording]
      simp)
  refine ⟨appended, ?_⟩
  intro id member
  rw [World.bank, Station.setLog, Bank.log_modify]
  split
  · exact unsealed
  · exact settled.unsealed id member

/-- A drain settles the world and leaves the log of an open recorder without events. -/
theorem Orderly.drain {mutators : List Mutator} (orderly : Orderly ⟨chronicle, mutators⟩)
    (member : mutator ∈ mutators) (recording : mutator.fate = .recording) (id : LogId) :
    (Chronicle.drain id).Ends True chronicle fun _ reached =>
      Settled ⟨reached, mutators⟩ ∧ (reached.bank.log mutator.log).count = 0 := by
  refine .of_forall fun _ reached started => ?_
  have settles := Chronicle.settles_of_drain orderly.strict started
  have settled := orderly.settle settles
  refine ⟨settled, ?_⟩
  have registered := (settled.registered_of_recording member recording).1
  rw [settles.bank] at registered ⊢
  obtain ⟨before, -, empty⟩ := orderly.bank.log_drained_of_mem_drained registered
  rw [empty, Log.count_reset (orderly.bank.opened _ before)]

/-- The rule of storing, for the recorder of a mutator. -/
theorem keeps (config : SessionConfig) (recording : mutator.fate = .recording) (record : Record) :
    (Chronicle.recorder config mutator.log).Keeps record True
      (fun chronicle => Settled ⟨chronicle, front ++ mutator :: back⟩)
      (fun chronicle => Orderly ⟨chronicle, front ++ mutator :: back⟩)
      (fun chronicle => Settled ⟨chronicle, front ++ mutator.extend record.slots :: back⟩) where
  readyBefore := fun _ settled => settled.ready (by simp) recording
  readyAfter := by
    intro chronicle settled
    have here : mutator.extend record.slots ∈ front ++ mutator.extend record.slots :: back := by simp
    have ready := settled.ready here recording
    exact ready
  listed := fun _ _ settled =>
    ⟨(settled.registered_of_recording (by simp) recording).1, settled.bank.known⟩
  spill := fun _ _ settled _ gains => settled.flip recording gains
  append := fun _ _ settled fits gains => settled.append recording gains fits
  handled := fun _ _ settled => ⟨⟨settled.strict, settled.instrumented, settled.bank,
    settled.registry, settled.past, settled.apart, settled.placed, fun other member =>
      ⟨(settled.accounted other member).kept, (settled.accounted other member).cut⟩⟩,
    settled.unsealed⟩
  drain := by
    rintro chronicle (settled | spilt)
    · exact settled.toOrderly.drain (by simp) recording _
    · exact spilt.drain (by simp) recording _
  drainAfter := by
    intro chronicle settled
    have here : mutator.extend record.slots ∈ front ++ mutator.extend record.slots :: back := by simp
    have drained := settled.toOrderly.drain here recording mutator.log
    exact drained

/-- **A recorder that answers settles the world with what it recorded.** -/
theorem Settled.answer (settled : Settled ⟨chronicle, front ++ mutator :: back⟩)
    (recording : mutator.fate = .recording) {config : SessionConfig}
    (instrumented : config.isInstrumented = true) {call : Call} {reached : Chronicle}
    (answered : ((Chronicle.recorder config mutator.log).answer call).start chronicle
      = (.ok (), reached)) :
    Settled ⟨reached, front ++ mutator.extend call.encoded.slots :: back⟩ := by
  rw [Recorder.answer_eq_store] at answered
  have drains : (Controller.mk 0 Chronicle.drain).drainer = Chronicle.drain := rfl
  exact (Recorder.ends_store instrumented (fun _ => rfl) drains
    (keeps config recording call.encoded) settled).of_ok answered

end Recording

/-! ## Opening and closing recorders -/

section Opening

variable {chronicle reached : Chronicle} {mutators : List Mutator}

/-- A recorder that is opened starts with nothing recorded. -/
theorem Settled.open (settled : Settled ⟨chronicle, mutators⟩) {id : LogId}
    (started : (Chronicle.perform Session.openRecorder).start chronicle = (.ok id, reached)) :
    Settled ⟨reached, mutators ++ [{ log := id }]⟩ := by
  obtain ⟨session, succeeded, rfl⟩ := Chronicle.perform_eq started
  obtain ⟨log, created, rfl, rfl⟩ := Session.openRecorder_eq_ok succeeded
  obtain ⟨opened, unsealed, empty⟩ := Log.create_fresh created
  have sound := settled.bank.sound.add_create created
  have fresh : Mutator.replayed { log := chronicle.bank.logs.size } chronicle.consumer.batches
      = [] := by
    refine List.flatMap_eq_nil_iff.mpr fun batch member => ?_
    rw [Batch.slotsFrom, List.filter_eq_nil_iff.mpr]
    · rfl
    · intro entry inside
      have earlier := settled.past batch member entry inside
      simpa [Mutator.sources] using Nat.ne_of_lt earlier
  refine ⟨⟨settled.strict, settled.instrumented, settled.bank.enroll sound opened false, ?_, ?_, ?_,
    ?_, ?_⟩, ?_⟩
  · show (chronicle.bank.enroll log false).ordinary = _
    rw [settled.bank.ordinary_enroll, openLogs, List.filter_append, List.map_append]
    exact congrArg (· ++ _) settled.registry
  · intro batch member entry inside
    show entry.1 < (chronicle.bank.enroll log false).logs.size
    rw [Bank.size_enroll]
    exact Nat.lt_succ_of_lt (settled.past batch member entry inside)
  · rw [List.map_append, List.map_singleton, List.pairwise_append]
    refine ⟨settled.apart, List.pairwise_singleton .., ?_⟩
    intro sources member others last id source shared
    obtain ⟨mutator, present, rfl⟩ := List.mem_map.mp member
    rw [List.mem_singleton.mp last] at shared
    have known := (settled.placed mutator present).known id source
    rw [List.mem_singleton.mp shared] at known
    exact Nat.lt_irrefl _ known
  · intro mutator member
    rcases List.mem_append.mp member with old | new
    · exact (settled.placed mutator old).enroll log false
    · rw [List.mem_singleton.mp new]
      exact Mutator.placed_enroll chronicle.bank log
  · intro mutator member
    rcases List.mem_append.mp member with old | new
    · exact (settled.accounted mutator old).withBank
        ((settled.placed mutator old).undrained_enroll log false)
    · rw [List.mem_singleton.mp new]
      refine ⟨fun _ => ?_, fun lost => by cases lost⟩
      show _ ++ ((chronicle.bank.enroll log false).log chronicle.bank.logs.size).segments.flatten = []
      rw [Bank.log_enroll_self, Log.segments_of_unsealed opened unsealed, empty]
      exact congrArg (· ++ _) fresh
  · intro id member
    rcases List.mem_append.mp member with old | new
    · show ((chronicle.bank.enroll log false).log id).isSealed = false
      rw [Bank.log_enroll_of_lt (settled.bank.known id old)]
      exact settled.unsealed id old
    · rw [List.mem_singleton.mp new]
      show ((chronicle.bank.enroll log false).log chronicle.bank.logs.size).isSealed = false
      rw [Bank.log_enroll_self, unsealed]

/-- A recorder that cannot be opened changes nothing. -/
theorem Settled.openFailed (settled : Settled ⟨chronicle, mutators⟩) {failure : Failure}
    (started : (Chronicle.perform Session.openRecorder).start chronicle
      = (.error failure, reached)) : Settled ⟨reached, mutators⟩ := by
  obtain ⟨session, refused, rfl⟩ := Chronicle.perform_eq started
  rw [Session.openRecorder_eq_error refused]
  exact settled

end Opening

section Closing

variable {chronicle reached : Chronicle} {front back : List Mutator} {mutator : Mutator}

/-- The logs of the open recorders without that of one mutator. -/
theorem erase_openLogs (recording : mutator.fate = .recording) {fate : Fate}
    (closed : fate ≠ .recording)
    (distinct : (openLogs (front ++ mutator :: back)).Nodup) :
    (openLogs (front ++ mutator :: back)).erase mutator.log
      = openLogs (front ++ { mutator with fate := fate } :: back) := by
  have before : openLogs (front ++ mutator :: back)
      = openLogs front ++ mutator.log :: openLogs back := by
    simp [openLogs, Mutator.isRecording, recording]
  have after : openLogs (front ++ { mutator with fate := fate } :: back)
      = openLogs front ++ openLogs back := by
    simp [openLogs, Mutator.isRecording, closed]
  rw [before] at distinct
  have absent : mutator.log ∉ openLogs front := fun member =>
    (List.nodup_append.mp distinct).2.2 _ member _ List.mem_cons_self rfl
  rw [before, after, List.erase_append_right _ absent, List.erase_cons_head]

/-- Retiring the log of a mutator, in a bank in which at most a snapshot was enrolled, settles the
world if the mutator is accounted for. -/
theorem Settled.retire (settled : Settled ⟨chronicle, front ++ mutator :: back⟩)
    (recording : mutator.fate = .recording) {bank : Bank} {fate : Fate}
    (closed : fate ≠ .recording) (orderly : bank.Orderly)
    (size : chronicle.bank.logs.size ≤ bank.logs.size)
    (ordinary : bank.ordinary = chronicle.bank.ordinary)
    (unsealed : ∀ id ∈ bank.registered, (bank.log id).isSealed = false)
    (others : ∀ other : Mutator, other.Placed chronicle.bank →
      other.Placed bank ∧ other.undrained bank = other.undrained chronicle.bank)
    (sources : ∀ id ∈ Mutator.sources { mutator with fate := fate },
      id = mutator.log ∨ chronicle.bank.logs.size ≤ id)
    (placed : Mutator.Placed { mutator with fate := fate } (bank.retire mutator.log))
    (accounted : Mutator.Accounted { mutator with fate := fate }
      { chronicle with bank := bank.retire mutator.log }) :
    Settled ⟨{ chronicle with bank := bank.retire mutator.log },
      front ++ { mutator with fate := fate } :: back⟩ := by
  have listed : mutator.log ∈ bank.ordinary := by
    rw [ordinary, Bank.mem_ordinary]
    exact settled.registered_of_recording (by simp) recording
  obtain ⟨registered, noSnapshot⟩ := Bank.mem_ordinary.mp listed
  have foreign : ∀ other, other ∈ front ∨ other ∈ back → mutator.log ∉ other.sources := by
    intro other elsewhere shared
    refine settled.separate elsewhere _ shared ?_
    rw [Mutator.sources, recording]
    exact List.mem_cons_self
  have present : ∀ other, other ∈ front ∨ other ∈ back → other ∈ front ++ mutator :: back := by
    intro other elsewhere
    simpa using elsewhere.imp_right .inr
  have disjoint : ∀ other, other ∈ front ∨ other ∈ back →
      ∀ id ∈ Mutator.sources { mutator with fate := fate }, id ∉ other.sources := by
    intro other elsewhere id source shared
    rcases sources id source with rfl | fresh
    · exact foreign other elsewhere shared
    · have known := (settled.placed other (present other elsewhere)).known id shared
      exact Nat.lt_irrefl _ (Nat.lt_of_lt_of_le known fresh)
  refine ⟨⟨settled.strict, settled.instrumented,
    orderly.retire (orderly.known _ registered) noSnapshot, ?_, ?_, ?_, ?_, ?_⟩, ?_⟩
  · show (bank.retire mutator.log).ordinary = _
    have registry : bank.ordinary = openLogs (front ++ mutator :: back) :=
      ordinary.trans settled.registry
    have distinct : bank.ordinary.Nodup := orderly.distinct.filter _
    rw [registry] at distinct
    rw [orderly.ordinary_retire, registry]
    exact erase_openLogs recording closed distinct
  · intro batch member entry inside
    show entry.1 < (bank.retire mutator.log).logs.size
    rw [Bank.size_retire]
    exact Nat.lt_of_lt_of_le (settled.past batch member entry inside) size
  · have apart := settled.apart
    rw [List.map_append, List.map_cons, List.pairwise_append, List.pairwise_cons] at apart ⊢
    obtain ⟨fronts, ⟨-, backs⟩, across⟩ := apart
    refine ⟨fronts, ⟨?_, backs⟩, ?_⟩
    · intro some member
      obtain ⟨other, inBack, rfl⟩ := List.mem_map.mp member
      exact disjoint other (.inr inBack)
    · intro some member next following id source shared
      rcases List.mem_cons.mp following with rfl | inBack
      · obtain ⟨other, inFront, rfl⟩ := List.mem_map.mp member
        exact disjoint other (.inl inFront) id shared source
      · exact across some member next (List.mem_cons_of_mem _ inBack) id source shared
  · refine forall_mutators placed fun other elsewhere => ?_
    have before := settled.placed other (present other elsewhere)
    exact (others other before).1.retire orderly (foreign other elsewhere)
  · refine forall_mutators accounted fun other elsewhere => ?_
    have before := settled.placed other (present other elsewhere)
    refine (settled.accounted other (present other elsewhere)).withBank ?_
    rw [Mutator.undrained_retire (foreign other elsewhere)]
    exact (others other before).2
  · intro id member
    obtain ⟨different, before⟩ := (Bank.mem_registered_retire orderly).mp member
    show ((bank.retire mutator.log).log id).isSealed = false
    rw [Bank.log_retire_of_ne (Ne.symm different)]
    exact unsealed id before

/-- A source that no batch knows yet takes nothing from the batches. -/
theorem Orderly.replayed_kept {mutators : List Mutator} (orderly : Orderly ⟨chronicle, mutators⟩)
    (recording : mutator.fate = .recording) {copy : LogId}
    (fresh : chronicle.bank.logs.size ≤ copy) :
    Mutator.replayed { mutator with fate := .kept copy } chronicle.consumer.batches
      = mutator.replayed chronicle.consumer.batches := by
  rw [Mutator.replayed, Mutator.replayed, List.flatMap_def, List.flatMap_def]
  refine congrArg _ (List.map_congr_left fun batch member => ?_)
  refine congrArg (List.flatMap _) (List.filter_congr fun entry inside => ?_)
  have earlier := orderly.past batch member entry inside
  have different : entry.1 ≠ copy := Nat.ne_of_lt (Nat.lt_of_lt_of_le earlier fresh)
  simp [Mutator.sources, recording, different]

/-- **A recorder that is closed leaves its slots to a snapshot.** -/
theorem Settled.close (settled : Settled ⟨chronicle, front ++ mutator :: back⟩)
    (recording : mutator.fate = .recording) {copy : LogId}
    (taken : (chronicle.bank.snapshot mutator.log).1 = .ok copy)
    (started : (Chronicle.perform (Session.closeRecorder mutator.log)).start chronicle
      = (.ok (), reached)) :
    Settled ⟨reached, front ++ { mutator with fate := .kept copy } :: back⟩ := by
  have ready := settled.ready (by simp) recording
  obtain ⟨registered, -⟩ := settled.registered_of_recording (by simp) recording
  obtain ⟨session, closed, rfl⟩ := Chronicle.perform_eq started
  rw [Session.start_closeRecorder] at closed
  obtain ⟨-, rfl⟩ := Prod.mk.inj closed
  rcases snapshot : chronicle.bank.snapshot mutator.log with ⟨outcome, bank⟩
  rw [snapshot] at taken
  obtain rfl : outcome = .ok copy := taken
  obtain ⟨log, cloned, rfl, rfl⟩ := Bank.snapshot_eq_ok snapshot
  obtain ⟨opened, sealed, same⟩ := Log.clone_same ready.soundLog.spacious ready.opened cloned
  have orderly := settled.bank.enroll (settled.bank.sound.add_clone ready.known cloned) opened true
  have different : chronicle.bank.logs.size ≠ mutator.log := Ne.symm (Nat.ne_of_lt ready.known)
  have accounted := (settled.accounted mutator (by simp)).kept (by simp [recording])
  show Settled ⟨{ chronicle with bank := (chronicle.bank.snapshot mutator.log).2.retire mutator.log },
    _⟩
  rw [snapshot]
  refine settled.retire recording (by simp) orderly ?_ ?_ ?_ ?_ ?_ ?_ ?_
  · rw [Bank.size_enroll]
    exact Nat.le_succ _
  · rw [settled.bank.ordinary_enroll]
    exact List.append_nil _
  · intro id member
    rcases List.mem_append.mp member with old | new
    · rw [Bank.log_enroll_of_lt (settled.bank.known id old)]
      exact settled.unsealed id old
    · rw [List.mem_singleton.mp new, Bank.log_enroll_self, sealed]
      exact settled.unsealed _ registered
  · intro other placed
    exact ⟨placed.enroll log true, placed.undrained_enroll log true⟩
  · intro id source
    rcases List.mem_cons.mp source with rfl | last
    · exact .inl rfl
    · exact .inr (Nat.le_of_eq (List.mem_singleton.mp last).symm)
  · exact Mutator.placed_kept ready.known orderly
  · refine ⟨fun _ => ?_, fun lost => by cases lost⟩
    show Mutator.replayed { mutator with fate := .kept chronicle.bank.logs.size }
        chronicle.consumer.batches
      ++ (((chronicle.bank.enroll log true).retire mutator.log).log
        chronicle.bank.logs.size).segments.flatten = mutator.recorded
    rw [settled.replayed_kept recording (Nat.le_refl _), Bank.log_retire_of_ne (Ne.symm different),
      Bank.log_enroll_self, same]
    rw [Mutator.undrained, Mutator.holder, recording] at accounted
    exact accounted

/-- A recorder that is closed with an error takes the slots with it that were not replayed. -/
theorem Settled.closeFailed (settled : Settled ⟨chronicle, front ++ mutator :: back⟩)
    (recording : mutator.fate = .recording) {failure : Failure}
    (started : (Chronicle.perform (Session.closeRecorder mutator.log)).start chronicle
      = (.error failure, reached)) :
    Settled ⟨reached, front ++ { mutator with fate := .lost } :: back⟩ := by
  have ready := settled.ready (by simp) recording
  obtain ⟨session, closed, rfl⟩ := Chronicle.perform_eq started
  rw [Session.start_closeRecorder] at closed
  obtain ⟨refused, rfl⟩ := Prod.mk.inj closed
  rcases snapshot : chronicle.bank.snapshot mutator.log with ⟨outcome, bank⟩
  have same : bank = chronicle.bank := by
    cases outcome with
    | error cause => exact Bank.snapshot_eq_error snapshot
    | ok copy =>
      have succeeded : (chronicle.bank.snapshot mutator.log).1 = .ok copy := by rw [snapshot]
      have refused : (chronicle.bank.snapshot mutator.log).1.map (fun _ => ()) = .error failure :=
        refused
      rw [succeeded] at refused
      cases refused
  have accounted := (settled.accounted mutator (by simp)).kept (by simp [recording])
  show Settled ⟨{ chronicle with bank := (chronicle.bank.snapshot mutator.log).2.retire mutator.log },
    _⟩
  rw [snapshot]
  subst same
  refine settled.retire recording (by simp) settled.bank (Nat.le_refl _) rfl settled.unsealed
    (fun _ placed => ⟨placed, rfl⟩) ?_ ?_ ?_
  · intro id source
    exact .inl (List.mem_singleton.mp source)
  · exact Mutator.placed_lost ready.known settled.bank
  · refine ⟨fun kept => absurd rfl kept, fun _ => ⟨mutator.undrained chronicle.bank, ?_⟩⟩
    have replayed : Mutator.replayed { mutator with fate := .lost } chronicle.consumer.batches
        = mutator.replayed chronicle.consumer.batches := by
      simp only [Mutator.replayed, Mutator.sources, recording]
    show Mutator.replayed { mutator with fate := .lost } chronicle.consumer.batches ++ _
      = mutator.recorded
    rw [replayed]
    exact accounted

/-- An open recorder can be closed if there is room for the snapshot. -/
theorem Settled.closes {mutators : List Mutator} (settled : Settled ⟨chronicle, mutators⟩)
    (member : mutator ∈ mutators) (recording : mutator.fate = .recording)
    (fits : Log.regionBytes (chronicle.bank.log mutator.log).halfBytes ≤ chronicle.bank.room) :
    ∃ copy reached, (chronicle.bank.snapshot mutator.log).1 = .ok copy
      ∧ (Chronicle.perform (Session.closeRecorder mutator.log)).start chronicle
        = (.ok (), reached) := by
  have ready := settled.ready member recording
  obtain ⟨copy, taken⟩ := Bank.snapshot_of_fits ready.soundLog.spacious fits
  have same : (chronicle.session.bank.snapshot mutator.log).1 = .ok copy := taken
  have closed := Chronicle.start_perform (Session.closeRecorder mutator.log) chronicle
  rw [Session.start_closeRecorder, same] at closed
  exact ⟨copy, _, taken, closed⟩

end Closing

/-! ## Runs -/

/-- **The steps of a session**, each with what becomes of the mutators.  A step is an operation of
the session; between the operations, the heap and everything else that the auditor looks at may
change in any way, but for the configuration. -/
inductive Step : World → World → Prop where
  | opened {chronicle reached mutators id} :
    (Chronicle.perform Session.openRecorder).start chronicle = (.ok id, reached) →
    Step ⟨chronicle, mutators⟩ ⟨reached, mutators ++ [{ log := id }]⟩
  | openFailed {chronicle reached mutators failure} :
    (Chronicle.perform Session.openRecorder).start chronicle = (.error failure, reached) →
    Step ⟨chronicle, mutators⟩ ⟨reached, mutators⟩
  | answer {chronicle reached front mutator back call} : mutator.fate = .recording →
    ((Chronicle.recorder chronicle.consumer.auditor.config mutator.log).answer call).start chronicle
      = (.ok (), reached) →
    Step ⟨chronicle, front ++ mutator :: back⟩
      ⟨reached, front ++ mutator.extend call.encoded.slots :: back⟩
  | close {chronicle reached front mutator back copy} : mutator.fate = .recording →
    (chronicle.bank.snapshot mutator.log).1 = .ok copy →
    (Chronicle.perform (Session.closeRecorder mutator.log)).start chronicle = (.ok (), reached) →
    Step ⟨chronicle, front ++ mutator :: back⟩
      ⟨reached, front ++ { mutator with fate := .kept copy } :: back⟩
  | closeFailed {chronicle reached front mutator back failure} : mutator.fate = .recording →
    (Chronicle.perform (Session.closeRecorder mutator.log)).start chronicle
      = (.error failure, reached) →
    Step ⟨chronicle, front ++ mutator :: back⟩
      ⟨reached, front ++ { mutator with fate := .lost } :: back⟩
  | verify {chronicle reached mutators outcome} : Session.Replays chronicle.session →
    Chronicle.verify.start chronicle = (outcome, reached) →
    Step ⟨chronicle, mutators⟩ ⟨reached, mutators⟩
  | dump {chronicle reached mutators outcome} :
    (Chronicle.perform Session.dump).start chronicle = (outcome, reached) →
    Step ⟨chronicle, mutators⟩ ⟨reached, mutators⟩
  | capture {chronicle reached mutators outcome} :
    (Chronicle.perform Session.capture).start chronicle = (outcome, reached) →
    Step ⟨chronicle, mutators⟩ ⟨reached, mutators⟩
  | change {chronicle : Chronicle} {mutators : List Mutator} {auditor : Auditor} :
    auditor.config = chronicle.consumer.auditor.config →
    Step ⟨chronicle, mutators⟩
      ⟨{ chronicle with consumer := { chronicle.consumer with auditor := auditor } }, mutators⟩

/-- The worlds that steps lead to. -/
inductive Reachable (start : World) : World → Prop where
  | start : Reachable start start
  | step {world next : World} : Reachable start world → Step world next → Reachable start next

/-- A session without mutators and an empty chronicle. -/
def ofSession (session : Session) : World :=
  ⟨⟨session.bank, session.handled, { auditor := session.consumer }⟩, []⟩

theorem Settled.start {memory : UInt64} {config : SessionConfig}
    (strict : config.checksLiveHeap = true) (instrumented : config.isInstrumented = true)
    {heap : Heap} {device : Option Device} {random : RandomSource} {session : Session}
    (created : Session.create memory config heap device random = .ok session) :
    Settled (ofSession session) := by
  obtain ⟨device, rfl⟩ := Session.create_eq_ok created
  have none : ∀ id : LogId, id ∉ ([] : List LogId) := fun _ => List.not_mem_nil
  refine ⟨⟨strict, instrumented, ⟨.empty memory, ?_, ?_, List.nodup_nil, ?_, List.nodup_nil⟩, rfl,
    ?_, .nil, ?_, ?_⟩, ?_⟩
  · exact fun id member => absurd member (none id)
  · exact fun id member => absurd member (none id)
  · exact fun id member => absurd member (none id)
  · exact fun batch member => absurd member List.not_mem_nil
  · exact fun mutator member => absurd member List.not_mem_nil
  · exact fun mutator member => absurd member List.not_mem_nil
  · exact fun id member => absurd member (none id)

/-- What the auditor looks at does not matter. -/
theorem Settled.withAuditor {chronicle : Chronicle} {mutators : List Mutator}
    (settled : Settled ⟨chronicle, mutators⟩) {auditor : Auditor}
    (config : auditor.config = chronicle.consumer.auditor.config) :
    Settled ⟨{ chronicle with consumer := { chronicle.consumer with auditor := auditor } },
      mutators⟩ := by
  refine ⟨⟨?_, ?_, settled.bank, settled.registry, settled.past, settled.apart, settled.placed,
    fun other member => ⟨(settled.accounted other member).kept,
      (settled.accounted other member).cut⟩⟩, settled.unsealed⟩
  · show auditor.config.checksLiveHeap = true
    rw [config]
    exact settled.strict
  · show auditor.config.isInstrumented = true
    rw [config]
    exact settled.instrumented

/-- Every step keeps a world settled. -/
theorem Settled.step {world next : World} (settled : Settled world) (step : Step world next) :
    Settled next := by
  cases step with
  | opened started => exact settled.open started
  | openFailed started => exact settled.openFailed started
  | answer recording started => exact settled.answer recording settled.instrumented started
  | close recording taken started => exact settled.close recording taken started
  | closeFailed recording started => exact settled.closeFailed recording started
  | verify replays started =>
    exact settled.toOrderly.settle (Chronicle.settles_of_verify replays started)
  | @dump chronicle reached mutators outcome started =>
    obtain ⟨session, dumped, rfl⟩ := Chronicle.perform_eq started
    obtain ⟨random, drawn⟩ := Session.start_dump_reached chronicle.session
    rw [dumped] at drawn
    cases drawn
    exact settled.withAuditor rfl
  | @capture chronicle reached mutators outcome started =>
    obtain ⟨session, captured, rfl⟩ := Chronicle.perform_eq started
    obtain ⟨random, drawn⟩ := Session.start_capture_reached chronicle.session
    rw [captured] at drawn
    cases drawn
    exact settled.withAuditor rfl
  | change config => exact settled.withAuditor config

theorem Settled.reachable {start world : World} (settled : Settled start)
    (reachable : Reachable start world) : Settled world := by
  induction reachable with
  | start => exact settled
  | step _ step earlier => exact earlier.step step

/-- **Every event is replayed once.**  In every world that a strict session with instrumentation
reaches, what was replayed of a mutator, over all cycles, and what is still to be replayed are what
was recorded through it, in recording order.  Closing a recorder takes a snapshot if there is room
to map one; a mutator whose recorder was closed with an error, without a snapshot, has a prefix
replayed of what was recorded.  After a verification nothing is pending, and the registry lists the
logs of the open recorders. -/
theorem exactly_once (memory : UInt64) (config : SessionConfig)
    (strict : config.checksLiveHeap = true) (instrumented : config.isInstrumented = true)
    (heap : Heap) (device : Option Device) (random : RandomSource) (session : Session)
    (created : Session.create memory config heap device random = .ok session) (world : World)
    (reachable : Reachable (ofSession session) world) :
    (∀ mutator ∈ world.mutators, mutator.fate ≠ .lost →
      mutator.replayed world.batches ++ mutator.undrained world.bank = mutator.recorded)
    ∧ (∀ mutator ∈ world.mutators, mutator.fate = .lost →
      mutator.replayed world.batches <+: mutator.recorded)
    ∧ (∀ mutator ∈ world.mutators, mutator.fate = .recording →
      Log.regionBytes (world.bank.log mutator.log).halfBytes ≤ world.bank.room →
      ∃ copy reached, (world.bank.snapshot mutator.log).1 = .ok copy
        ∧ (Chronicle.perform (Session.closeRecorder mutator.log)).start world.chronicle
          = (.ok (), reached))
    ∧ ∀ outcome reached, Session.Replays world.chronicle.session →
      Chronicle.verify.start world.chronicle = (outcome, reached) →
      (∀ id ∈ reached.bank.registered, (reached.bank.log id).pending = 0)
      ∧ (∀ mutator ∈ world.mutators, mutator.undrained reached.bank = [])
      ∧ reached.bank.snapshots = []
      ∧ reached.bank.registered = openLogs world.mutators := by
  have settled := (Settled.start strict instrumented created).reachable reachable
  refine ⟨fun mutator member => (settled.accounted mutator member).kept,
    fun mutator member => (settled.accounted mutator member).cut,
    fun mutator member recording => settled.closes member recording, ?_⟩
  intro outcome reached replays started
  have settles := Chronicle.settles_of_verify replays started
  rw [settles.bank]
  refine ⟨?_, ?_, settled.bank.snapshots_drained, ?_⟩
  · intro id member
    obtain ⟨before, -, empty⟩ := settled.bank.log_drained_of_mem_drained member
    have opened := settled.bank.opened id before
    rw [empty, Log.pending, Log.isSealed_reset opened, Log.count_reset opened]
    rfl
  · intro mutator member
    exact (settled.placed mutator member).undrained_drained settled.bank
  · rw [settled.bank.registered_drained]
    exact settled.registry

/-- A session that verifies nothing. -/
def idle : Session := .least .empty ⟨0x10000000, 0x20000000⟩

/-- A recorder that is closed after two events with a verification between them: the first event was
replayed, the second one waits in the snapshot, and one more verification leaves nothing. -/
theorem exactly_once_closed :
    ∃ world, Reachable (ofSession idle) world
      ∧ (∃ mutator ∈ world.mutators, mutator.fate = .kept 1
        ∧ mutator.recorded = [⟨2, 0x80000000001⟩, ⟨3, 0x80000800001⟩]
        ∧ mutator.replayed world.batches = [⟨2, 0x80000000001⟩]
        ∧ mutator.replayed world.batches ++ mutator.undrained world.bank = mutator.recorded)
      ∧ Session.Replays world.chronicle.session
      ∧ ∃ outcome reached, Chronicle.verify.start world.chronicle = (outcome, reached)
        ∧ (∀ mutator ∈ world.mutators, mutator.undrained reached.bank = [])
        ∧ reached.bank.snapshots = [] ∧ reached.bank.registered = openLogs world.mutators := by
  have run : ∃ world, Reachable (ofSession idle) world ∧ Session.Replays world.chronicle.session
      ∧ ∃ mutator ∈ world.mutators, mutator.fate = .kept 1
        ∧ mutator.recorded = [⟨2, 0x80000000001⟩, ⟨3, 0x80000800001⟩]
        ∧ mutator.replayed world.batches = [⟨2, 0x80000000001⟩] := by
    have recorded : Reachable (ofSession idle) ⟨_, _⟩ := .step (.step .start (.opened rfl))
      (@Step.answer _ _ [] ⟨0, .recording, []⟩ [] (.record .newObject ⟨2, 0x10000000⟩) rfl rfl)
    have verified : Reachable (ofSession idle) ⟨_, _⟩ := .step recorded (.verify ⟨_, rfl⟩ rfl)
    have again : Reachable (ofSession idle) ⟨_, _⟩ := .step verified
      (@Step.answer _ _ [] _ [] (.record .newObject ⟨3, 0x10000100⟩) rfl rfl)
    have closed : Reachable (ofSession idle) ⟨_, _⟩ :=
      .step again (@Step.close _ _ [] _ [] 1 rfl rfl rfl)
    exact ⟨_, closed, ⟨_, rfl⟩, _, List.mem_singleton.mpr rfl, rfl, rfl, rfl⟩
  obtain ⟨world, reachable, replays, mutator, member, fate, recorded, replayed⟩ := run
  obtain ⟨kept, -, -, settled⟩ := exactly_once 0x100000000 (.least .empty) rfl rfl
    (.empty ⟨0x10000000, 0x20000000⟩) (some { capacity := 255 }) { byteAt := fun _ => 0 } idle rfl
    world reachable
  have account := kept mutator member (by rw [fate]; nofun)
  obtain ⟨-, drained, released, listed⟩ := settled _ _ replays rfl
  exact ⟨world, reachable, ⟨mutator, member, fate, recorded, replayed, account⟩, replays, _, _, rfl,
    drained, released, listed⟩

end World

end HeapAudit
