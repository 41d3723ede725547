import HeapAudit.Proofs.Recording.Store
import HeapAudit.Recording.Journal

/-!
# Overflow loses nothing

A recorder whose drainer notes the segments of a full log and resets it never fails,
and what it noted together with what the log still holds is what was recorded: each
segment is a run of whole records, and the runs follow each other in recording order.
The policies may cut the runs at different places, but
they agree on the slots.

The invariant is `Journal.Accounts`, of which the rule of storing makes a statement
about one call and induction one about any number of calls.
-/

namespace HeapAudit

set_option autoImplicit false

/-! ## Accounts -/

namespace Journal

/-- The segments that a journal noted, in order. -/
def segments (journal : Journal) : List (List Event) := journal.flatMap DrainNote.segments

/-- **The account of a log.**  What was noted and what the log still holds are the runs of the
records so far, and no run exceeds the capacity.  With guard pages the log is also registered. -/
structure Accounts (guards : Prop) (id : LogId) (limit : UInt64) (records : List Record)
    (station : Station Journal) : Prop where
  ready : station.bank.Ready id
  listed : guards → station.bank.Listed id
  capacity : (station.bank.log id).capacity = limit
  told : ∃ runs : List (List Record), runs.flatten = records ∧
    segments station.consumer ++ (station.bank.log id).segments = runs.map slotsOf
  bounded : ∀ segment ∈ segments station.consumer, segment.length ≤ limit.toNat

/-- The account of a log of which nothing is sealed. -/
structure Settled (guards : Prop) (id : LogId) (limit : UInt64) (records : List Record)
    (station : Station Journal) : Prop extends Accounts guards id limit records station where
  unsealed : (station.bank.log id).isSealed = false

variable {guards : Prop} {id : LogId} {limit : UInt64} {records : List Record}
variable {station : Station Journal}

/-- The runs of a settled account end with the one that the active half holds. -/
theorem Settled.split (settled : Settled guards id limit records station) :
    ∃ (runs : List (List Record)) (last : List Record), runs.flatten ++ last = records
      ∧ segments station.consumer = runs.map slotsOf
      ∧ (station.bank.log id).activeEvents = slotsOf last := by
  obtain ⟨runs, flattened, told⟩ := settled.told
  rw [Log.segments_of_unsealed settled.ready.opened settled.unsealed] at told
  obtain ⟨noted, current, rfl, same, rest⟩ := List.map_eq_append_iff.mp told.symm
  obtain ⟨last, rfl, held⟩ := List.map_eq_singleton_iff.mp rest
  exact ⟨noted, last, by simpa using flattened, same.symm, held.symm⟩

/-- Putting another log in place settles the account of what that log holds. -/
theorem Settled.setLog (settled : Settled guards id limit records station) {log : Log} {held : List Record}
    (gains : (station.bank.log id).Gains (slotsOf held) log)
    (fits : (station.bank.log id).count.toNat + (slotsOf held).length
      ≤ (station.bank.log id).capacity.toNat) :
    Settled guards id limit (records ++ held) (station.setLog id log) := by
  have ready := settled.ready
  obtain ⟨runs, last, flattened, noted, events⟩ := settled.split
  have opened : log.isClosed = false := by rw [gains.isClosed, ready.opened]
  have unsealed : log.isSealed = false := by rw [gains.isSealed, settled.unsealed]
  refine ⟨⟨ready.modify (gains.sound ready.soundLog fits) gains.base gains.halfBytes opened,
    fun guarded => (settled.listed guarded).modify id _, ?_, ⟨runs ++ [last ++ held], ?_, ?_⟩, settled.bounded⟩, ?_⟩
  · rw [Station.setLog, ready.log_modify, gains.capacity, settled.capacity]
  · rw [List.flatten_append, List.flatten_singleton, ← List.append_assoc, flattened]
  · rw [Station.setLog, ready.log_modify, Log.segments_of_unsealed opened unsealed, gains.activeEvents, events]
    simp [noted, slotsOf]
  · rw [Station.setLog, ready.log_modify, unsealed]

/-- Sealing keeps the account. -/
theorem Settled.flip (settled : Settled guards id limit records station) {log : Log}
    (gains : (station.bank.log id).Gains [] log) :
    Accounts guards id limit records (station.setLog id log.flip) := by
  have ready := settled.ready
  have sound := gains.sound ready.soundLog (ready.soundLog.counted _)
  obtain ⟨runs, last, flattened, noted, events⟩ := settled.split
  have opened : log.isClosed = false := by rw [gains.isClosed, ready.opened]
  refine ⟨ready.modify sound.flip ?_ ?_ (by rw [Log.isClosed_flip, opened]),
    fun guarded => (settled.listed guarded).modify id _, ?_, ⟨runs ++ [last, []], ?_, ?_⟩, settled.bounded⟩
  · rw [Log.base_flip, gains.base]
  · rw [Log.halfBytes_flip, gains.halfBytes]
  · rw [Station.setLog, ready.log_modify, Log.capacity, Log.halfBytes_flip, gains.halfBytes]
    exact settled.capacity
  · simpa using flattened
  · rw [Station.setLog, ready.log_modify, Log.segments_flip opened, gains.activeEvents, events]
    simp [noted, slotsOf]

/-- A drain notes what the log holds and settles the account. -/
theorem Accounts.drain (accounts : Accounts guards id limit records station) :
    (drainer .reset id).Ends False station fun _ reached =>
      Settled guards id limit records reached ∧ (reached.bank.log id).count = 0 := by
  have ready := accounts.ready
  have opened := ready.opened
  obtain ⟨runs, flattened, told⟩ := accounts.told
  have log := Bank.log_modify_self Log.reset ready.known
  have noted : segments (station.consumer ++ [⟨id, (station.bank.log id).isClosed,
      (station.bank.log id).segments⟩]) = runs.map slotsOf := by
    rw [← told, segments, List.flatMap_append, List.flatMap_singleton]
    rfl
  refine .of_start (show (drainer .reset id).start station = (.ok (), { station with
      bank := station.bank.modify id Log.reset
      consumer := station.consumer ++ [⟨id, (station.bank.log id).isClosed,
        (station.bank.log id).segments⟩] }) from rfl)
    ⟨⟨⟨ready.reset, fun guarded => (accounts.listed guarded).modify id _, ?_,
      ⟨runs ++ [[]], ?_, ?_⟩, ?_⟩, ?_⟩, ?_⟩
  · rw [log, Log.capacity, Log.halfBytes_reset]
    exact accounts.capacity
  · simpa using flattened
  · rw [log, Log.segments_reset opened, noted]
    simp [slotsOf]
  · intro segment member
    rw [segments, List.flatMap_append, List.flatMap_singleton] at member
    rcases List.mem_append.mp member with old | new
    · exact accounts.bounded segment old
    · rw [← accounts.capacity]
      exact ready.soundLog.length_le new
  · rw [log, Log.isSealed_reset opened]
  · rw [log, Log.count_reset opened]

/-- The account of a log just created is settled. -/
theorem Settled.of_create {bank reached : Bank} (sound : bank.Sound) {requested : UInt64}
    (created : bank.create requested = (.ok id, reached)) {registered : List LogId}
    (known : ∀ other ∈ registered, other < reached.logs.size) (listed : guards → id ∈ registered)
    (handled : WordMap Nat) :
    Settled guards id (reached.log id).capacity []
      { bank := { reached with registered := registered }, handled := handled, consumer := [] } := by
  have kept := sound.create requested
  rw [created] at kept
  obtain ⟨log, fresh, rfl, rfl⟩ := Bank.create_eq_ok created
  obtain ⟨opened, unsealed, empty⟩ := Log.create_fresh fresh
  have here := bank.log_add_self log
  have segments := Log.segments_of_unsealed opened unsealed
  refine ⟨⟨⟨kept.congr rfl rfl, ?_, ?_⟩, fun guarded => ⟨listed guarded, known⟩, rfl,
    ⟨[[]], rfl, ?_⟩, ?_⟩, ?_⟩
  · rw [Bank.size_add]
    exact Nat.lt_succ_self _
  · exact (congrArg Log.isClosed here).trans opened
  · refine (congrArg Log.segments here).trans ?_
    rw [segments, empty]
    rfl
  · intro segment member
    exact absurd member List.not_mem_nil
  · exact (congrArg Log.isSealed here).trans unsealed

/-- The rule of storing, for a recorder with a journal. -/
theorem keeps {recorder : Recorder Journal} (drainer : recorder.drainer = drainer .reset)
    (record : Record) :
    recorder.Keeps record False (Settled (recorder.policy = .guardPage) recorder.log limit records)
      (Accounts (recorder.policy = .guardPage) recorder.log limit records)
      (Settled (recorder.policy = .guardPage) recorder.log limit (records ++ [record])) where
  readyBefore := fun _ settled => settled.ready
  readyAfter := fun _ settled => settled.ready
  listed := fun guards _ settled => settled.listed guards
  spill := fun _ _ settled _ gains => settled.flip gains
  append := by
    intro station other settled fits gains
    have same : slotsOf [record] = record.slots := List.flatMap_singleton ..
    rw [← same] at gains
    exact settled.setLog gains (by rw [same]; exact fits)
  handled := fun _ _ settled => ⟨⟨settled.ready, settled.listed, settled.capacity, settled.told,
    settled.bounded⟩, settled.unsealed⟩
  drain := by
    rw [drainer]
    rintro station (settled | spilt)
    · exact settled.toAccounts.drain
    · exact spilt.drain
  drainAfter := by
    rw [drainer]
    intro station settled
    exact settled.toAccounts.drain

end Journal

/-! ## Runs -/

namespace Recorder

variable {recorder : Recorder Journal} {controller : Controller Journal}
variable {limit : UInt64} {records : List Record} {station : Station Journal}

/-- Answering calls adds their records to the account. -/
theorem ends_answerAll (instrumented : recorder.isInstrumented = true)
    (drainer : recorder.drainer = Journal.drainer .reset)
    (same : controller.drainer = Journal.drainer .reset)
    (handler : recorder.policy = .guardPage → recorder.handler = some controller.handle)
    (calls : List Call)
    (settled : Journal.Settled (recorder.policy = .guardPage) recorder.log limit records station) :
    (recorder.answerAll calls).Ends False station fun _ reached =>
      Journal.Settled (recorder.policy = .guardPage) recorder.log limit
        (records ++ calls.map Call.encoded) reached := by
  induction calls generalizing records station with
  | nil =>
    refine .of_start (Work.start_pure ..) ?_
    rw [List.map_nil, List.append_nil]
    exact settled
  | cons call rest onward =>
    have stored := ends_store instrumented handler (by rw [same, drainer])
      (Journal.keeps drainer call.encoded) settled
    rw [← answer_eq_store] at stored
    refine .bind stored ?_
    rintro - reached settled
    rw [List.map_cons, List.append_cons]
    exact onward settled

end Recorder

/-- The bank after logs were created on request, in order, on a machine with the given memory; a
request that is refused leaves it alone. -/
def Bank.ofRequests (memory : UInt64) (requests : List UInt64) : Bank :=
  requests.foldl (fun bank requested => (bank.create requested).2) (.empty memory)

theorem Bank.sound_ofRequests (memory : UInt64) (requests : List UInt64) :
    (ofRequests memory requests).Sound := by
  have extended : ∀ bank : Bank, bank.Sound →
      (requests.foldl (fun bank requested => (bank.create requested).2) bank).Sound := by
    induction requests with
    | nil => exact fun _ sound => sound
    | cons requested rest onward => exact fun _ sound => onward _ (sound.create requested)
  exact extended _ (.empty memory)

/-- **Overflow loses nothing.**  A recorder on a log just created, in a bank that may hold other
logs, answers any calls without failing.  The segments drained so far and those still in the log are
runs of whole records, in recording order, and none exceeds the capacity of the log. -/
theorem Recorder.answerAll_lossless (memory : UInt64) (requests : List UInt64) (requested : UInt64)
    (id : LogId) (bank : Bank)
    (created : (Bank.ofRequests memory requests).create requested = (.ok id, bank))
    (registered : List LogId) (known : ∀ other ∈ registered, other < bank.logs.size)
    (controller : ControllerId) (handled : WordMap Nat) (recorder : Recorder Journal)
    (logged : recorder.log = id) (instrumented : recorder.isInstrumented = true)
    (drainer : recorder.drainer = Journal.drainer .reset)
    (guarded : recorder.policy = .guardPage → id ∈ registered ∧
      recorder.handler = some (Controller.handle ⟨controller, Journal.drainer .reset⟩))
    (calls : List Call) :
    ∃ (reached : Station Journal) (runs : List (List Record)),
      (recorder.answerAll calls).start
          { bank := { bank with registered := registered }, handled := handled, consumer := [] }
        = (.ok (), reached)
      ∧ (Journal.segments reached.consumer ++ (reached.bank.log id).segments).flatten
        = slotsOf (calls.map Call.encoded)
      ∧ Journal.segments reached.consumer ++ (reached.bank.log id).segments = runs.map slotsOf
      ∧ runs.flatten = calls.map Call.encoded
      ∧ ∀ segment ∈ Journal.segments reached.consumer ++ (reached.bank.log id).segments,
        segment.length ≤ (bank.log id).capacity.toNat := by
  subst logged
  have settled := Journal.Settled.of_create (Bank.sound_ofRequests memory requests) created known
    (fun guards => (guarded guards).1) handled
  obtain ⟨value, reached, started, settled⟩ :=
    (ends_answerAll instrumented drainer rfl (fun guards => (guarded guards).2) calls
      settled).succeeds
  obtain ⟨runs, flattened, told⟩ := settled.told
  refine ⟨reached, runs, started, ?_, told, flattened, ?_⟩
  · rw [told, ← slotsOf_flatten, flattened, List.nil_append]
  · intro segment member
    rcases List.mem_append.mp member with drained | current
    · exact settled.bounded segment drained
    · rw [← settled.capacity]
      exact settled.ready.soundLog.length_le current

/-- Three hundred events overflow the least log, which holds 255 of them, and none is lost. -/
theorem Recorder.answerAll_lossless_overflowing :
    ∃ reached : Station Journal,
      (answerAll ⟨0, true, .guardPage, Journal.drainer .reset,
          some (Controller.handle ⟨0, Journal.drainer .reset⟩)⟩
          (.replicate 300 (.record .newObject ⟨2, 0x10000000⟩))).start
        { bank := { ((Bank.empty 0x100000000).create 1).2 with registered := [0] }, consumer := [] }
      = (.ok (), reached)
      ∧ (Journal.segments reached.consumer ++ (reached.bank.log 0).segments).flatten
        = .replicate 300 ⟨2, 0x80000000001⟩ := by
  obtain ⟨reached, runs, started, lossless, -⟩ := answerAll_lossless 0x100000000 [] 1 0
    ((Bank.empty 0x100000000).create 1).2 rfl [0] (by decide) 0 ∅
    ⟨0, true, .guardPage, Journal.drainer .reset,
      some (Controller.handle ⟨0, Journal.drainer .reset⟩)⟩
    rfl rfl rfl (fun _ => ⟨List.mem_singleton.mpr rfl, rfl⟩)
    (.replicate 300 (.record .newObject ⟨2, 0x10000000⟩))
  refine ⟨reached, started, lossless.trans ?_⟩
  decide +kernel

end HeapAudit
