import HeapAudit.Offload.Coordinator
import Mathlib.Logic.Function.Basic

/-!
# Handing work over without losing a signal

Any number of producers signal work to one offload loop.  A signal is two steps: the generation of
the signal is published under a lock, and then the loop is woken up with a token, of which there is
only one.  A turn of the loop is four: it takes the token, notes the generation of the last signal,
transfers the logs, and records the generation that it had noted as complete.  The steps of all of
them come in any order (`HandOver.Step`).

Signals may share one token and one transfer, and a signal may fall between any two steps of the
loop.  It is not lost for it (`HandOver.Sound`).  As long as nobody is about to bring a token and
none is there, the loop has noted the last generation or completed it.  And what is complete was
published before the transfer began: the generation is noted first.

The last generation is the number of signals, and so it fits a word as long as their number does.
-/

namespace HeapAudit

set_option autoImplicit false

/-! ## Transfers and signals -/

namespace Coordinator

/-- A change that leaves the token and both generations as they are. -/
structure SameSignals (coordinator after : Coordinator) : Prop where
  isSignalled : after.isSignalled = coordinator.isSignalled
  signalled : after.signalled = coordinator.signalled
  completed : after.completed = coordinator.completed

theorem SameSignals.trans {coordinator between after : Coordinator}
    (first : coordinator.SameSignals between) (second : between.SameSignals after) :
    coordinator.SameSignals after :=
  ⟨second.isSignalled.trans first.isSignalled, second.signalled.trans first.signalled,
    second.completed.trans first.completed⟩

variable (bank : Bank)

theorem sameSignals_assign (coordinator : Coordinator) (id : LogId) :
    coordinator.SameSignals (coordinator.assign id) := by
  rw [assign]
  split <;> exact ⟨rfl, rfl, rfl⟩

theorem sameSignals_transferLog (coordinator : Coordinator) (id : LogId) :
    coordinator.SameSignals (transferLog bank coordinator id).2 := by
  refine (coordinator.sameSignals_assign id).trans ?_
  rw [transferLog]
  cases (bank.log id).segments <;> exact ⟨rfl, rfl, rfl⟩

/-- **A transfer of logs does not touch the signals.** -/
theorem sameSignals_transferLogs (ids : List LogId) (coordinator : Coordinator) :
    coordinator.SameSignals (transferLogs bank coordinator ids).2 := by
  induction ids generalizing coordinator with
  | nil => exact ⟨rfl, rfl, rfl⟩
  | cons id rest onward =>
    have first := sameSignals_transferLog bank coordinator id
    rw [transferLogs]
    split
    · rename_i failed
      rw [failed] at first
      exact first
    · rename_i transferred
      rw [transferred] at first
      exact first.trans (onward _)

theorem sameSignals_of_transferLogs {bank : Bank} {coordinator after : Coordinator}
    {ids : List LogId} {outcome : Except Cause Unit}
    (transferred : transferLogs bank coordinator ids = (outcome, after)) :
    coordinator.SameSignals after := by
  have same := sameSignals_transferLogs bank ids coordinator
  rwa [transferred] at same

end Coordinator

/-! ## Producers and the loop, step by step -/

/-- Where the offload loop stands. -/
inductive Stage where
  /-- It waits for work. -/
  | waiting
  /-- It has taken work up. -/
  | received
  /-- It has noted the generation of the last signal. -/
  | noted (generation : Nat)
  /-- It has transferred the logs. -/
  | transferred (generation : Nat)
  deriving DecidableEq

/-- Producers and the offload loop at work. -/
structure HandOver where
  coordinator : Coordinator
  stage : Stage
  /-- The generation that a producer has published without having woken the loop up yet. -/
  unsent : Nat → Option Nat

namespace HandOver

/-- The steps of producers and of the loop. -/
inductive Action where
  /-- A producer publishes a generation. -/
  | publish (producer generation : Nat)
  /-- A producer wakes the loop up and is told the generation of its signal. -/
  | wake (producer generation : Nat)
  | receive
  | note (generation : Nat)
  /-- The registered logs of a bank are transferred, all of them. -/
  | transfer (bank : Bank)
  | complete (generation : Nat)

/-- Whether a signal begins. -/
def Action.isSignal : Action → Bool
  | .publish _ _ => true
  | _ => false

/-- Whether a step is taken by a producer. -/
def Action.isProducer : Action → Bool
  | .publish _ _ | .wake _ _ => true
  | _ => false

/-- Producers and a loop before the first signal. -/
def start (device : Device) : HandOver where
  coordinator := { buildsGraph := true, device := device }
  stage := .waiting
  unsent := fun _ => none

/-- **One step** of a producer or of the loop.  The bank of a transfer is whatever the logs have
come to by then. -/
inductive Step : HandOver → Action → HandOver → Prop where
  | publish {state : HandOver} {producer : Nat} (publication : Publication)
      (idle : state.unsent producer = none) :
      Step state (.publish producer (state.coordinator.signalled + 1))
        { state with
          coordinator := state.coordinator.publish publication
          unsent := Function.update state.unsent producer (some (state.coordinator.signalled + 1)) }
  | wake {state : HandOver} {producer generation : Nat}
      (unsent : state.unsent producer = some generation) :
      Step state (.wake producer generation)
        { state with
          coordinator := state.coordinator.wake
          unsent := Function.update state.unsent producer none }
  | receive {state : HandOver} (waiting : state.stage = .waiting)
      (signalled : state.coordinator.isSignalled = true) :
      Step state .receive
        { state with coordinator := state.coordinator.receive, stage := .received }
  | note {state : HandOver} (received : state.stage = .received) :
      Step state (.note state.coordinator.signalled)
        { state with stage := .noted state.coordinator.signalled }
  | transfer {state : HandOver} {generation : Nat} {bank : Bank} {after : Coordinator}
      (noted : state.stage = .noted generation)
      (succeeds : Coordinator.transferLogs bank state.coordinator bank.registered
        = (.ok (), after)) :
      Step state (.transfer bank)
        { state with coordinator := after, stage := .transferred generation }
  | complete {state : HandOver} {generation : Nat}
      (transferred : state.stage = .transferred generation) :
      Step state (.complete generation)
        { state with coordinator := state.coordinator.complete generation, stage := .waiting }

/-- Steps one after the other, with the list of what was done. -/
inductive Runs : HandOver → List Action → HandOver → Prop where
  | nil (state : HandOver) : Runs state [] state
  | snoc {first state next : HandOver} {trace : List Action} {action : Action}
      (runs : Runs first trace state) (step : Step state action next) :
      Runs first (trace ++ [action]) next

/-- A signal is the two steps of a producer. -/
theorem runs_signal {state : HandOver} {producer : Nat} (publication : Publication)
    (idle : state.unsent producer = none) :
    Runs state
      [.publish producer (state.coordinator.signalled + 1),
        .wake producer (state.coordinator.signalled + 1)]
      { state with coordinator := state.coordinator.signal publication } := by
  have published := Runs.snoc (.nil state) (.publish publication idle)
  have woken := published.snoc (.wake (Function.update_self ..))
  have same : Function.update (Function.update state.unsent producer
      (some (state.coordinator.signalled + 1))) producer none = state.unsent := by
    rw [Function.update_idem, ← idle, Function.update_eq_self]
  dsimp only at woken
  rw [same] at woken
  exact woken

/-- A turn that does its work is the four steps of the loop. -/
theorem runs_turn {state : HandOver} {bank : Bank} {diagnostics : List Diagnostic}
    {after : Coordinator} (building : state.coordinator.buildsGraph = true)
    (waiting : state.stage = .waiting)
    (worked : state.coordinator.turn bank = (.worked diagnostics, after)) :
    Runs state
      [.receive, .note state.coordinator.signalled, .transfer bank,
        .complete state.coordinator.signalled]
      { state with coordinator := after, stage := .waiting } := by
  rw [Coordinator.turn] at worked
  split at worked
  · cases worked
  · rename_i signalled
    dsimp only [Coordinator.receive] at worked
    rw [if_pos building] at worked
    split at worked
    · cases worked
    · rename_i reached succeeds
      cases worked
      have received := Runs.snoc (.nil state) (.receive waiting (by simpa using signalled))
      have noted := received.snoc (.note rfl)
      have transferred := noted.snoc (.transfer rfl succeeds)
      exact transferred.snoc (.complete rfl)

/-! ## What the trace says about a generation -/

/-- A whole transfer came after every step that published the generation. -/
def Covered (trace : List Action) (generation : Nat) : Prop :=
  ∀ before producer after, trace = before ++ .publish producer generation :: after →
    ∃ bank, .transfer bank ∈ after

/-- A step of a trace with one more step is the new one, or one that was there. -/
theorem split_snoc {trace before after : List Action} {action first : Action}
    (split : trace ++ [action] = before ++ first :: after) :
    first = action ∨ ∃ rest, after = rest ++ [action] ∧ trace = before ++ first :: rest := by
  rcases after.eq_nil_or_concat with rfl | ⟨rest, last, rfl⟩
  · obtain ⟨-, same⟩ := List.append_inj' split rfl
    exact .inl (List.singleton_inj.mp same).symm
  · rw [List.concat_eq_append, ← List.cons_append, ← List.append_assoc] at split
    obtain ⟨same, ends⟩ := List.append_inj' split rfl
    exact .inr ⟨rest, by rw [List.concat_eq_append, ends], same⟩

theorem covered_nil (generation : Nat) : Covered [] generation := by
  intro before producer after split
  cases before <;> cases split

theorem Covered.snoc {trace : List Action} {generation : Nat} {action : Action}
    (covered : Covered trace generation)
    (other : ∀ producer, Action.publish producer generation ≠ action) :
    Covered (trace ++ [action]) generation := by
  intro before producer after split
  rcases split_snoc split with same | ⟨rest, rfl, same⟩
  · exact absurd same (other producer)
  · obtain ⟨bank, inside⟩ := covered before producer rest same
    exact ⟨bank, List.mem_append_left _ inside⟩

theorem covered_transfer (trace : List Action) (bank : Bank) (generation : Nat) :
    Covered (trace ++ [.transfer bank]) generation := by
  intro before producer after split
  rcases split_snoc split with same | ⟨rest, rfl, same⟩
  · cases same
  · exact ⟨bank, List.mem_append_right _ (List.mem_singleton_self _)⟩

/-! ## The invariant -/

/-- The generation that the loop works on lies between the two of the coordinator, and once the logs
are transferred it is covered with all earlier ones. -/
def Working (trace : List Action) (coordinator : Coordinator) : Stage → Prop
  | .waiting | .received => True
  | .noted generation =>
    coordinator.completed ≤ generation ∧ generation ≤ coordinator.signalled
  | .transferred generation =>
    coordinator.completed ≤ generation ∧ generation ≤ coordinator.signalled
      ∧ ∀ earlier ≤ generation, Covered trace earlier

/-- Nothing has been signalled that the loop does not know of. -/
def UpToDate (coordinator : Coordinator) : Stage → Prop
  | .waiting => coordinator.completed = coordinator.signalled
  | .received => True
  | .noted generation | .transferred generation => generation = coordinator.signalled

/-- **The invariant of the hand-over.** -/
structure Sound (trace : List Action) (state : HandOver) : Prop where
  counted : state.coordinator.signalled = trace.countP Action.isSignal
  ordered : state.coordinator.completed ≤ state.coordinator.signalled
  covered : ∀ generation ≤ state.coordinator.completed, Covered trace generation
  working : Working trace state.coordinator state.stage
  upToDate : state.coordinator.isSignalled = false → (∀ producer, state.unsent producer = none) →
    UpToDate state.coordinator state.stage
  published : ∀ producer generation, state.unsent producer = some generation →
    .publish producer generation ∈ trace
  told : ∀ producer generation, .wake producer generation ∈ trace →
    .publish producer generation ∈ trace

theorem sound_start (device : Device) : Sound [] (start device) where
  counted := rfl
  ordered := Nat.le_refl _
  covered := fun generation _ => covered_nil generation
  working := trivial
  upToDate := fun _ _ => rfl
  published := fun _ _ unsent => by cases unsent
  told := fun _ _ member => absurd member List.not_mem_nil

theorem isSignal_of_quiet {action : Action} (quiet : action.isProducer = false) :
    action.isSignal = false := by
  cases action <;> first | rfl | cases quiet

namespace Sound

variable {trace : List Action} {state : HandOver}

/-- Steps other than publishing leave what is covered covered. -/
theorem covered_snoc (sound : Sound trace state) {action : Action}
    (other : action.isSignal = false) :
    ∀ generation ≤ state.coordinator.completed, Covered (trace ++ [action]) generation := by
  intro generation within
  refine (sound.covered generation within).snoc fun producer same => ?_
  rw [← same] at other
  cases other

theorem counted_snoc (sound : Sound trace state) {action : Action}
    (other : action.isSignal = false) :
    state.coordinator.signalled = (trace ++ [action]).countP Action.isSignal := by
  rw [List.countP_append, List.countP_singleton, other, ← sound.counted]
  rfl

/-- Steps other than publishing leave the loop at its work. -/
theorem working_snoc (sound : Sound trace state) {action : Action}
    (other : action.isSignal = false) :
    Working (trace ++ [action]) state.coordinator state.stage := by
  have working := sound.working
  cases stage : state.stage with
  | waiting => trivial
  | received => trivial
  | noted generation =>
    rw [stage] at working
    exact working
  | transferred generation =>
    rw [stage] at working
    obtain ⟨above, below, covered⟩ := working
    refine ⟨above, below, fun earlier within => (covered earlier within).snoc ?_⟩
    rintro producer rfl
    cases other

theorem publish (sound : Sound trace state) {producer : Nat} (publication : Publication) :
    Sound (trace ++ [.publish producer (state.coordinator.signalled + 1)])
      { state with
        coordinator := state.coordinator.publish publication
        unsent := Function.update state.unsent producer
          (some (state.coordinator.signalled + 1)) } := by
  have older : ∀ generation ≤ state.coordinator.signalled, Covered trace generation →
      Covered (trace ++ [.publish producer (state.coordinator.signalled + 1)]) generation := by
    intro generation within covered
    refine covered.snoc fun other same => ?_
    cases same
    omega
  refine ⟨?_, ?_, ?_, ?_, ?_, ?_, ?_⟩
  · rw [List.countP_append, ← sound.counted]
    rfl
  · exact Nat.le_succ_of_le sound.ordered
  · intro generation within
    exact older generation (Nat.le_trans within sound.ordered) (sound.covered generation within)
  · have working := sound.working
    dsimp only [Coordinator.publish]
    cases stage : state.stage with
    | waiting => trivial
    | received => trivial
    | noted generation =>
      rw [stage] at working
      exact ⟨working.1, Nat.le_succ_of_le working.2⟩
    | transferred generation =>
      rw [stage] at working
      obtain ⟨above, below, covered⟩ := working
      refine ⟨above, Nat.le_succ_of_le below, fun earlier within => ?_⟩
      exact older earlier (Nat.le_trans within below) (covered earlier within)
  · -- the producer is about to bring a token
    intro _ sent
    have unsent := (Function.update_self ..).symm.trans (sent producer)
    cases unsent
  · intro other generation unsent
    dsimp only at unsent
    rw [Function.update_apply] at unsent
    split at unsent
    · rename_i same
      cases unsent
      rw [same]
      exact List.mem_append_right _ (List.mem_singleton_self _)
    · exact List.mem_append_left _ (sound.published other generation unsent)
  · intro other generation member
    rcases List.mem_append.mp member with old | new
    · exact List.mem_append_left _ (sound.told other generation old)
    · cases List.mem_singleton.mp new

theorem wake (sound : Sound trace state) {producer generation : Nat}
    (unsent : state.unsent producer = some generation) :
    Sound (trace ++ [.wake producer generation])
      { state with
        coordinator := state.coordinator.wake
        unsent := Function.update state.unsent producer none } where
  counted := sound.counted_snoc rfl
  ordered := sound.ordered
  covered := sound.covered_snoc rfl
  working := sound.working_snoc rfl
  upToDate := by
    -- the token is there
    intro none
    cases none
  published := by
    intro other published held
    dsimp only at held
    rw [Function.update_apply] at held
    split at held
    · cases held
    · exact List.mem_append_left _ (sound.published other published held)
  told := by
    intro other told member
    rcases List.mem_append.mp member with old | new
    · exact List.mem_append_left _ (sound.told other told old)
    · cases List.mem_singleton.mp new
      exact List.mem_append_left _ (sound.published producer generation unsent)

/-- A step of the loop: it leaves the producers and what they have signalled as they are. -/
theorem loop (sound : Sound trace state) {action : Action} {next : HandOver}
    (quiet : action.isProducer = false) (unsent : next.unsent = state.unsent)
    (signalled : next.coordinator.signalled = state.coordinator.signalled)
    (ordered : next.coordinator.completed ≤ state.coordinator.signalled)
    (covered : ∀ generation ≤ next.coordinator.completed, Covered (trace ++ [action]) generation)
    (working : Working (trace ++ [action]) next.coordinator next.stage)
    (upToDate : next.coordinator.isSignalled = false →
      (∀ producer, state.unsent producer = none) → UpToDate next.coordinator next.stage) :
    Sound (trace ++ [action]) next where
  counted := by
    rw [signalled]
    exact sound.counted_snoc (isSignal_of_quiet quiet)
  ordered := by
    rw [signalled]
    exact ordered
  covered := covered
  working := working
  upToDate := by
    rw [unsent]
    exact upToDate
  published := by
    rw [unsent]
    intro producer generation held
    exact List.mem_append_left _ (sound.published producer generation held)
  told := by
    intro producer generation member
    rcases List.mem_append.mp member with old | new
    · exact List.mem_append_left _ (sound.told producer generation old)
    · rw [← List.mem_singleton.mp new] at quiet
      cases quiet

/-- **One step keeps the invariant.** -/
theorem step (sound : Sound trace state) {action : Action} {next : HandOver}
    (step : Step state action next) : Sound (trace ++ [action]) next := by
  cases step with
  | publish publication idle => exact sound.publish publication
  | wake unsent => exact sound.wake unsent
  | receive waiting signalled =>
    refine sound.loop rfl rfl rfl sound.ordered (sound.covered_snoc rfl) trivial ?_
    intro _ _
    trivial
  | note received =>
    refine sound.loop rfl rfl rfl sound.ordered (sound.covered_snoc rfl) ?_ ?_
    · exact ⟨sound.ordered, Nat.le_refl _⟩
    · intro _ _
      rfl
  | @transfer generation bank after noted succeeds =>
    have same := Coordinator.sameSignals_of_transferLogs succeeds
    have working := sound.working
    rw [noted] at working
    refine sound.loop rfl rfl same.signalled ?_ ?_ ?_ ?_
    · exact same.completed ▸ sound.ordered
    · intro earlier _
      exact covered_transfer trace bank earlier
    · refine ⟨?_, ?_, fun earlier _ => covered_transfer trace bank earlier⟩
      · exact same.completed ▸ working.1
      · exact same.signalled ▸ working.2
    · intro none sent
      have upToDate := sound.upToDate (same.isSignalled ▸ none) sent
      rw [noted] at upToDate
      exact upToDate.trans same.signalled.symm
  | @complete generation transferred =>
    have working := sound.working
    rw [transferred] at working
    obtain ⟨-, below, covered⟩ := working
    refine sound.loop rfl rfl rfl below ?_ trivial ?_
    · intro earlier within
      refine (covered earlier within).snoc fun producer same => ?_
      cases same
    · intro none sent
      have upToDate := sound.upToDate none sent
      rw [transferred] at upToDate
      exact upToDate

/-- A step completes no less than was complete. -/
theorem completed_le (sound : Sound trace state) {action : Action} {next : HandOver}
    (step : Step state action next) :
    state.coordinator.completed ≤ next.coordinator.completed := by
  cases step with
  | publish | wake | receive | note => exact Nat.le_refl _
  | @transfer generation bank after noted succeeds =>
    have same := Coordinator.sameSignals_of_transferLogs succeeds
    exact Nat.le_of_eq same.completed.symm
  | @complete generation transferred =>
    have working := sound.working
    rw [transferred] at working
    exact working.1

/-- **The invariant holds after any number of steps.** -/
theorem runs {first : HandOver} {before : List Action} (sound : Sound before first)
    (runs : Runs first trace state) : Sound (before ++ trace) state := by
  induction runs with
  | nil => rwa [List.append_nil]
  | snoc _ step ih =>
    rw [← List.append_assoc]
    exact ih.step step

/-- Any number of steps complete no less than was complete. -/
theorem completed_le_of_runs {further : List Action} {next : HandOver}
    (sound : Sound trace state) (runs : Runs state further next) :
    state.coordinator.completed ≤ next.coordinator.completed := by
  induction runs with
  | nil => exact Nat.le_refl _
  | snoc before step ih => exact Nat.le_trans ih ((sound.runs before).completed_le step)

end Sound

/-- **No signal is lost.**  In every state that producers and the loop reach by any steps in any
order: the generations count the signals, and no more is complete than was signalled, nor ever less
than before.  A producer is told the generation that it published; when that is complete, all logs
have been transferred after it was published.  And when the loop waits, no producer is about to wake
it up and there is no token, everything that was signalled is complete. -/
theorem signals_are_covered (device : Device) {trace : List Action} {state : HandOver}
    (runs : Runs (start device) trace state) :
    state.coordinator.signalled = trace.countP Action.isSignal
    ∧ state.coordinator.completed ≤ state.coordinator.signalled
    ∧ (∀ further next, Runs state further next →
      state.coordinator.completed ≤ next.coordinator.completed)
    ∧ (∀ producer generation, .wake producer generation ∈ trace →
      .publish producer generation ∈ trace)
    ∧ (∀ before producer generation after,
      trace = before ++ .publish producer generation :: after →
      state.coordinator.isCovered generation = true → ∃ bank, .transfer bank ∈ after)
    ∧ (state.stage = .waiting → (∀ producer, state.unsent producer = none) →
      state.coordinator.isSignalled = false →
      state.coordinator.completed = state.coordinator.signalled) := by
  have sound := (sound_start device).runs runs
  rw [List.nil_append] at sound
  refine ⟨sound.counted, sound.ordered, fun further next => sound.completed_le_of_runs, sound.told,
    ?_, ?_⟩
  · intro before producer generation after split covered
    exact sound.covered generation (of_decide_eq_true covered) before producer after split
  · intro waiting sent none
    have upToDate := sound.upToDate none sent
    rwa [waiting] at upToDate

/-- A second signal comes while the loop takes the first one up, and one transfer of the only log is
enough for both. -/
theorem signals_are_covered_coalesced :
    let oneLog := ((Bank.empty 0x100000000).create 4096).2.register 0
    let trace : List Action :=
      [.publish 0 1, .wake 0 1, .receive, .publish 1 2, .note 2, .wake 1 2, .transfer oneLog,
        .complete 2]
    ∃ state, Runs (start { capacity := 16 }) trace state
      ∧ state.coordinator.isCovered 1 = true ∧ state.coordinator.isCovered 2 = true
      ∧ state.coordinator.completed ≤ state.coordinator.signalled
      ∧ ∃ bank, .transfer bank ∈ trace.drop 4 := by
  intro oneLog trace
  have signalled := @runs_signal (start { capacity := 16 }) 0 (.own []) rfl
  have received := signalled.snoc (.receive rfl rfl)
  have published := received.snoc (@Step.publish _ 1 (.own []) rfl)
  have noted := published.snoc (.note rfl)
  have woken := noted.snoc (.wake (Function.update_self ..))
  have transferred := woken.snoc (@Step.transfer _ _ oneLog _ rfl rfl)
  have run := transferred.snoc (.complete rfl)
  obtain ⟨-, ordered, -, -, covers, -⟩ := signals_are_covered _ run
  refine ⟨_, run, rfl, rfl, ordered, ?_⟩
  exact covers [.publish 0 1, .wake 0 1, .receive] 1 2 _ rfl rfl

end HandOver

end HeapAudit
