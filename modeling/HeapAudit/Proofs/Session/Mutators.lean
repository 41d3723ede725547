import HeapAudit.Proofs.Session.Chronicle

/-!
# The logs of a mutator

The events of a mutator go from the active half of its log through the sealed one into a
cycle, or, if the mutator is done before that, through a snapshot of its log.  At any time
one log or snapshot, the holder, has those that are still to be replayed.

`Mutator.Placed` says where the holder is: registered, or closed and done with.  What was
replayed of a mutator and what is still to be replayed are, one behind the other, what it
recorded (`Mutator.Accounted`).  Enrolling, retiring and draining logs keep both.
-/

namespace HeapAudit

set_option autoImplicit false

/-- What became of the log of a mutator. -/
inductive Fate where
  /-- The recorder is open. -/
  | recording
  /-- The recorder was closed and a snapshot keeps the events. -/
  | kept (snapshot : LogId)
  /-- The recorder was closed with an error: no snapshot could be made. -/
  | lost
  deriving DecidableEq

/-- A mutator and the slots recorded through its recorder, in order. -/
structure Mutator where
  log : LogId
  fate : Fate := .recording
  recorded : List Event := []

/-- The slots of a batch that come from some logs. -/
def Batch.slotsFrom (batch : Batch) (sources : List LogId) : List Event :=
  (batch.filter fun entry => sources.contains entry.1).flatMap fun entry => entry.2.flatten

/-- What a batch of a bank takes from some logs of which at most one is registered. -/
theorem Batch.slotsFrom_ofBank {bank : Bank} (orderly : bank.Orderly) {sources : List LogId}
    {holder : LogId} (member : holder ∈ sources)
    (only : ∀ id ∈ sources, id ∈ bank.registered → id = holder) :
    (ofBank bank).slotsFrom sources
      = if holder ∈ bank.registered then (bank.log holder).segments.flatten else [] := by
  have chosen : ∀ id ∈ bank.registered, sources.contains id = (id == holder) := by
    intro id registered
    rw [Bool.eq_iff_iff, List.contains_iff_mem, beq_iff_eq]
    constructor
    · intro source
      exact only id source registered
    · rintro rfl
      exact member
  have picked : (ofBank bank).filter (fun entry => sources.contains entry.1)
      = (List.replicate (bank.registered.count holder) holder).map
        fun id => (id, (bank.log id).segments) := by
    rw [ofBank, orderly.openLogs, List.filter_map, ← List.filter_beq]
    exact congrArg _ (List.filter_congr chosen)
  rw [slotsFrom, picked]
  split
  · rename_i registered
    rw [orderly.distinct.count, if_pos registered]
    simp
  · rename_i absent
    rw [orderly.distinct.count, if_neg absent]
    rfl

namespace Mutator

/-- The log of a mutator and the snapshot of it. -/
def sources (mutator : Mutator) : List LogId :=
  match mutator.fate with
  | .kept snapshot => [mutator.log, snapshot]
  | .recording | .lost => [mutator.log]

/-- Where the slots are that were not replayed yet. -/
def holder (mutator : Mutator) : LogId :=
  match mutator.fate with
  | .kept snapshot => snapshot
  | .recording | .lost => mutator.log

/-- The slots of a mutator that were replayed, in order. -/
def replayed (mutator : Mutator) (batches : List Batch) : List Event :=
  batches.flatMap fun batch => batch.slotsFrom mutator.sources

/-- The slots of a mutator that are still to be replayed. -/
def undrained (mutator : Mutator) (bank : Bank) : List Event :=
  (bank.log mutator.holder).segments.flatten

/-- Whether the recorder is open. -/
def isRecording (mutator : Mutator) : Bool := mutator.fate = .recording

/-- The mutator after more slots were recorded through it. -/
def extend (mutator : Mutator) (slots : List Event) : Mutator :=
  { mutator with recorded := mutator.recorded ++ slots }

/-- **The account of a mutator.**  What was replayed and what is still to be replayed is what was
recorded.  Without a snapshot the slots that were not replayed in time are missing at the end. -/
structure Accounted (mutator : Mutator) (chronicle : Chronicle) : Prop where
  kept : mutator.fate ≠ .lost →
    mutator.replayed chronicle.consumer.batches ++ mutator.undrained chronicle.bank
      = mutator.recorded
  cut : mutator.fate = .lost → mutator.replayed chronicle.consumer.batches <+: mutator.recorded

/-- The logs of a mutator in a bank: at most the one that holds its slots is registered, and one
that is not registered is closed. -/
structure Placed (mutator : Mutator) (bank : Bank) : Prop where
  known : ∀ id ∈ mutator.sources, id < bank.logs.size
  only : ∀ id ∈ mutator.sources, id ∈ bank.registered → id = mutator.holder
  held : mutator.holder ∈ bank.registered ∨ (bank.log mutator.holder).isClosed = true
  gone : mutator.fate = .lost → mutator.holder ∉ bank.registered

theorem holder_mem_sources (mutator : Mutator) : mutator.holder ∈ mutator.sources := by
  unfold holder sources
  cases mutator.fate <;> simp

/-! ## Logs that come and go -/

section Moving

variable {mutator : Mutator} {bank : Bank}

theorem Placed.holder_known (placed : mutator.Placed bank) : mutator.holder < bank.logs.size :=
  placed.known _ mutator.holder_mem_sources

/-- The slots still to be replayed are those that the next batch takes. -/
theorem Placed.slotsFrom_ofBank (placed : mutator.Placed bank) (orderly : bank.Orderly) :
    (Batch.ofBank bank).slotsFrom mutator.sources = mutator.undrained bank := by
  rw [Batch.slotsFrom_ofBank orderly mutator.holder_mem_sources placed.only]
  split
  · rfl
  · rename_i absent
    have closed := placed.held.resolve_left absent
    rw [undrained, Log.segments_of_closed closed]
    rfl

/-- Nothing is left to be replayed once a bank is drained. -/
theorem Placed.undrained_drained (placed : mutator.Placed bank) (orderly : bank.Orderly) :
    mutator.undrained bank.drained = [] := by
  by_cases registered : mutator.holder ∈ bank.registered
  · exact orderly.segments_flatten_drained registered
  · have closed := placed.held.resolve_left registered
    rw [undrained, orderly.log_drained_of_not_mem placed.holder_known registered,
      Log.segments_of_closed closed]
    rfl

/-- A change of an open log leaves mutators in their places. -/
theorem Placed.modify (placed : mutator.Placed bank) {id : LogId} (change : Log → Log)
    (opened : (bank.log id).isClosed = false) : mutator.Placed (bank.modify id change) where
  known := by
    intro other source
    rw [Bank.size_modify]
    exact placed.known other source
  only := placed.only
  held := by
    refine placed.held.imp_right fun closed => ?_
    have elsewhere : id ≠ mutator.holder := by
      rintro rfl
      rw [opened] at closed
      cases closed
    rw [Bank.log_modify_of_ne change elsewhere, closed]
  gone := placed.gone

theorem Placed.enroll (placed : mutator.Placed bank) (log : Log) (owned : Bool) :
    mutator.Placed (bank.enroll log owned) where
  known := by
    intro id source
    rw [Bank.size_enroll]
    exact Nat.lt_succ_of_lt (placed.known id source)
  only := by
    intro id source registered
    rcases List.mem_append.mp registered with old | new
    · exact placed.only id source old
    · exact absurd (placed.known id source) (by simp [List.mem_singleton.mp new])
  held := by
    rcases placed.held with registered | closed
    · exact .inl (List.mem_append_left _ registered)
    · right
      rw [Bank.log_enroll_of_lt placed.holder_known, closed]
  gone := by
    intro lost registered
    rcases List.mem_append.mp registered with old | new
    · exact placed.gone lost old
    · exact absurd placed.holder_known (by simp [List.mem_singleton.mp new])

theorem Placed.undrained_enroll (placed : mutator.Placed bank) (log : Log) (owned : Bool) :
    mutator.undrained (bank.enroll log owned) = mutator.undrained bank := by
  rw [undrained, Bank.log_enroll_of_lt placed.holder_known, undrained]

theorem Placed.retire (placed : mutator.Placed bank) (orderly : bank.Orderly) {id : LogId}
    (foreign : id ∉ mutator.sources) : mutator.Placed (bank.retire id) where
  known := by
    intro other source
    rw [Bank.size_retire]
    exact placed.known other source
  only := fun other source registered =>
    placed.only other source ((Bank.mem_registered_retire orderly).mp registered).2
  held := by
    have different : mutator.holder ≠ id := by
      rintro rfl
      exact foreign mutator.holder_mem_sources
    rcases placed.held with registered | closed
    · exact .inl ((Bank.mem_registered_retire orderly).mpr ⟨different, registered⟩)
    · right
      rw [Bank.log_retire_of_ne (Ne.symm different), closed]
  gone := fun lost registered =>
    placed.gone lost ((Bank.mem_registered_retire orderly).mp registered).2

theorem undrained_retire {id : LogId} (foreign : id ∉ mutator.sources) :
    mutator.undrained (bank.retire id) = mutator.undrained bank := by
  have different : id ≠ mutator.holder := by
    rintro rfl
    exact foreign mutator.holder_mem_sources
  rw [undrained, Bank.log_retire_of_ne different, undrained]

/-- A new log is that of a mutator which has nothing else. -/
theorem placed_enroll (bank : Bank) (log : Log) :
    Placed { log := bank.logs.size } (bank.enroll log false) where
  known := by
    intro id source
    rw [List.mem_singleton.mp source]
    exact Nat.lt_of_lt_of_eq (Nat.lt_succ_self _) Bank.size_enroll.symm
  only := fun id source _ => List.mem_singleton.mp source
  held := .inl (List.mem_append_right _ (List.mem_singleton.mpr rfl))
  gone := by
    intro lost
    cases lost

/-- A snapshot takes the place of the log that is retired. -/
theorem placed_kept {log : Log} (known : mutator.log < bank.logs.size)
    (orderly : (bank.enroll log true).Orderly) :
    Placed { mutator with fate := .kept bank.logs.size }
      ((bank.enroll log true).retire mutator.log) where
  known := by
    intro id source
    rw [Bank.size_retire, Bank.size_enroll]
    rcases List.mem_cons.mp source with rfl | new
    · exact Nat.lt_succ_of_lt known
    · rw [List.mem_singleton.mp new]
      exact Nat.lt_succ_self _
  only := by
    intro id source listed
    rcases List.mem_cons.mp source with rfl | new
    · exact absurd rfl ((Bank.mem_registered_retire orderly).mp listed).1
    · exact List.mem_singleton.mp new
  held := .inl ((Bank.mem_registered_retire orderly).mpr
    ⟨Ne.symm (Nat.ne_of_lt known), List.mem_append_right _ (List.mem_singleton.mpr rfl)⟩)
  gone := by
    intro lost
    cases lost

/-- A log that is retired without a snapshot is done with. -/
theorem placed_lost (known : mutator.log < bank.logs.size) (orderly : bank.Orderly) :
    Placed { mutator with fate := .lost } (bank.retire mutator.log) where
  known := by
    intro id source
    rw [List.mem_singleton.mp source, Bank.size_retire]
    exact known
  only := fun id source _ => List.mem_singleton.mp source
  held := .inr (Bank.isClosed_retire_self known)
  gone := fun _ listed => ((Bank.mem_registered_retire orderly).mp listed).1 rfl

theorem Placed.drain (placed : mutator.Placed bank) (orderly : bank.Orderly) :
    mutator.Placed bank.drained where
  known := by
    intro id source
    rw [orderly.drains.size]
    exact placed.known id source
  only := fun id source registered =>
    placed.only id source (orderly.log_drained_of_mem_drained registered).1
  held := by
    by_cases registered : mutator.holder ∈ bank.registered
    · by_cases snapshot : bank.isSnapshot mutator.holder = true
      · right
        rw [orderly.log_drained registered, Bank.drainedLog, if_pos snapshot]
        rfl
      · left
        rw [orderly.registered_drained]
        exact Bank.mem_ordinary.mpr ⟨registered, by simpa using snapshot⟩
    · right
      rw [orderly.log_drained_of_not_mem placed.holder_known registered]
      exact placed.held.resolve_left registered
  gone := fun lost registered =>
    placed.gone lost (orderly.log_drained_of_mem_drained registered).1

theorem replayed_append (mutator : Mutator) (batches later : List Batch) :
    mutator.replayed (batches ++ later) = mutator.replayed batches ++ mutator.replayed later :=
  List.flatMap_append ..

theorem replayed_singleton (mutator : Mutator) (batch : Batch) :
    mutator.replayed [batch] = batch.slotsFrom mutator.sources :=
  List.flatMap_singleton ..

/-- A cycle moves the slots still to be replayed over to the replayed ones. -/
theorem Accounted.settle {chronicle reached : Chronicle} (accounted : mutator.Accounted chronicle)
    (placed : mutator.Placed chronicle.bank) (orderly : chronicle.bank.Orderly)
    (settles : chronicle.Settles reached) : mutator.Accounted reached where
  kept := by
    intro present
    rw [settles.bank, settles.batches, replayed_append, replayed_singleton,
      placed.slotsFrom_ofBank orderly, placed.undrained_drained orderly, List.append_nil]
    exact accounted.kept present
  cut := by
    intro lost
    rw [settles.batches, replayed_append, replayed_singleton,
      Batch.slotsFrom_ofBank orderly mutator.holder_mem_sources placed.only,
      if_neg (placed.gone lost), List.append_nil]
    exact accounted.cut lost

/-- A bank that holds the same slots of a mutator keeps its account. -/
theorem Accounted.withBank {chronicle : Chronicle} {bank : Bank}
    (accounted : mutator.Accounted chronicle)
    (same : mutator.undrained bank = mutator.undrained chronicle.bank) :
    mutator.Accounted { chronicle with bank := bank } where
  kept := by
    intro present
    show mutator.replayed chronicle.consumer.batches ++ mutator.undrained bank = _
    rw [same]
    exact accounted.kept present
  cut := accounted.cut

end Moving

end Mutator

end HeapAudit
