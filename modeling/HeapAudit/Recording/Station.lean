import HeapAudit.Log.Bank

/-!
# Recording stations and overflow

Mutators record into logs; when a log is full, a consumer drains it.  A station is
the state they share: the bank of logs, the number of overflows that each controller
handled, and whatever the consumer keeps for itself.  A controller turns faults on
guard pages into drains.

Work at a station may fail in the middle, and what it did before stays.
-/

namespace HeapAudit

set_option autoImplicit false

/-- Work on a state that may fail; the state reached is kept in any case. -/
abbrev Work (σ : Type) := ExceptT Failure (StateM σ)

/-- Runs work from a state: the outcome and the state reached. -/
def Work.start {σ α : Type} (work : Work σ α) (state : σ) : Except Failure α × σ :=
  StateT.run (ExceptT.run work) state

namespace Work

variable {σ α β : Type}

@[simp] theorem start_pure (value : α) (state : σ) :
    Work.start (pure value) state = (.ok value, state) := rfl

@[simp] theorem start_throw (failure : Failure) (state : σ) :
    Work.start (throw failure : Work σ α) state = (.error failure, state) := rfl

@[simp] theorem start_get (state : σ) : Work.start (get : Work σ σ) state = (.ok state, state) := rfl

@[simp] theorem start_modify (change : σ → σ) (state : σ) :
    Work.start (modify change : Work σ Unit) state = (.ok (), change state) := rfl

/-- Work goes on from the state that the work before it reached, unless that failed. -/
theorem start_bind (work : Work σ α) (next : α → Work σ β) (state : σ) :
    Work.start (work >>= next) state = match work.start state with
      | (.ok value, reached) => (next value).start reached
      | (.error failure, reached) => (.error failure, reached) := by
  simp only [Work.start, ExceptT.run_bind, StateT.run_bind]
  cases outcome : (ExceptT.run work).run state with
  | mk result reached => cases result <;> rfl

theorem start_map (transform : α → β) (work : Work σ α) (state : σ) :
    Work.start (transform <$> work) state = match work.start state with
      | (.ok value, reached) => (.ok (transform value), reached)
      | (.error failure, reached) => (.error failure, reached) := by
  rw [map_eq_pure_bind, start_bind]
  rfl

end Work

/-- The number of a controller. -/
abbrev ControllerId := UInt64

/-- The state shared by mutators and the consumer of full logs. -/
structure Station (δ : Type) where
  bank : Bank
  /-- The number of overflows that controllers handled, for those that handled any. -/
  handled : WordMap Nat := ∅
  /-- The state of the consumer. -/
  consumer : δ

/-- Consumes the events of a full log. -/
abbrev Drainer (δ : Type) := LogId → Work (Station δ) Unit

/-- Handles a store that hit protected memory at an address; answers whether the store may be
tried again. -/
abbrev FaultHandler (δ : Type) := UInt64 → Work (Station δ) Bool

/-- In place of a drainer that was never set up: every drain aborts and touches nothing. -/
def Drainer.absent {δ : Type} : Drainer δ := fun _ => throw (.abort .missingCollaborator)

/-- In place of a handler that was never set up: every fault brought to it aborts. -/
def FaultHandler.absent {δ : Type} : FaultHandler δ := fun _ =>
  throw (.abort .missingCollaborator)

@[simp] theorem Drainer.start_absent {δ : Type} (id : LogId) (station : Station δ) :
    (Drainer.absent id).start station = (.error (.abort .missingCollaborator), station) := rfl

@[simp] theorem FaultHandler.start_absent {δ : Type} (address : UInt64) (station : Station δ) :
    (FaultHandler.absent address).start station
      = (.error (.abort .missingCollaborator), station) := rfl

/-- Turns faults on guard pages into drains. -/
structure Controller (δ : Type) where
  id : ControllerId
  drainer : Drainer δ

namespace Station

variable {δ : Type}

/-- The number of overflows that a controller handled. -/
def handledBy (station : Station δ) (controller : ControllerId) : Nat :=
  (station.handled.find? controller).getD 0

/-- Counts an overflow that a controller handled. -/
def countHandled (controller : ControllerId) (station : Station δ) : Station δ :=
  { station with
    handled := station.handled.insert controller (station.handledBy controller + 1) }

theorem handledBy_countHandled (controller other : ControllerId) (station : Station δ) :
    (station.countHandled controller).handledBy other
      = station.handledBy other + if controller = other then 1 else 0 := by
  rw [handledBy, countHandled, WordMap.find?_insert]
  split
  · rename_i same
    rw [same]
    rfl
  · rfl

/-- Changes the bank. -/
def modifyBank (change : Bank → Bank) : Work (Station δ) Unit :=
  modify fun station => { station with bank := change station.bank }

/-- The log with a number. -/
def log (id : LogId) : Work (Station δ) Log := do return (← get).bank.log id

/-- Changes the log with a number. -/
def modifyLog (id : LogId) (change : Log → Log) : Work (Station δ) Unit :=
  modifyBank fun bank => bank.modify id change

@[simp] theorem start_log (id : LogId) (station : Station δ) :
    (log id).start station = (.ok (station.bank.log id), station) := rfl

@[simp] theorem start_modifyBank (change : Bank → Bank) (station : Station δ) :
    (modifyBank change).start station
      = (.ok (), { station with bank := change station.bank }) := rfl

@[simp] theorem start_modifyLog (id : LogId) (change : Log → Log) (station : Station δ) :
    (modifyLog id change).start station
      = (.ok (), { station with bank := station.bank.modify id change }) := rfl

/-- A failure inside the work becomes an abort of the whole. -/
def escalating {α : Type} (work : Work (Station δ) α) : Work (Station δ) α :=
  tryCatch work fun failure => throw failure.escalate

theorem start_escalating {α : Type} (work : Work (Station δ) α) (station : Station δ) :
    (escalating work).start station = match work.start station with
      | (.ok value, reached) => (.ok value, reached)
      | (.error failure, reached) => (.error failure.escalate, reached) := by
  simp only [Work.start, escalating]
  cases outcome : (ExceptT.run work).run station with
  | mk result reached =>
    cases result <;>
      simp [tryCatch, tryCatchThe, MonadExceptOf.tryCatch, ExceptT.tryCatch, ExceptT.run_mk,
        StateT.run_bind] <;> simp_all [ExceptT.run] <;> rfl

end Station

/-- **Handles a fault.**  If the address lies in the guard page right behind the active half of a
registered log that is open, that half is sealed, the other one opened and the log drained; any
other address is left alone. -/
def Controller.handle {δ : Type} (controller : Controller δ) : FaultHandler δ := fun address => do
  let bank := (← get).bank
  match bank.owner? address with
  | none => return false
  | some id =>
    let log := bank.log id
    if log.isClosed || Memory.pageOf address != log.guardAddress then return false
    Station.modifyLog id Log.flip
    Station.escalating (controller.drainer id)
    modify (Station.countHandled controller.id)
    return true

end HeapAudit
