import HeapAudit.Proofs.Recording.Store

/-!
# Recording does not look at its consumer

A recorder and a controller touch the state of the consumer only through the drainer.  So
a consumer that keeps more than another one, and whose drainer does the same apart from
that, makes no difference to them: forgetting the surplus turns the work at one station
into the work at the other (`Recorder.mirrors_answer`).

This is what allows a drainer to keep a chronicle of what it consumes: statements about
the chronicle are statements about the drainer without it.
-/

namespace HeapAudit

set_option autoImplicit false

/-! ## Work and its mirror image -/

namespace Work

variable {σ τ α β : Type} {forget : σ → τ}

/-- Work on one state is that on another one, as far as the other one keeps what the first does. -/
def Mirrors (forget : σ → τ) (work : Work σ α) (image : Work τ α) : Prop :=
  ∀ state, image.start (forget state) = ((work.start state).1, forget (work.start state).2)

namespace Mirrors

theorem pure (value : α) : Mirrors forget (Pure.pure value : Work σ α) (Pure.pure value) :=
  fun _ => rfl

theorem throw (failure : Failure) :
    Mirrors forget (MonadExcept.throw failure : Work σ α) (MonadExcept.throw failure) :=
  fun _ => rfl

theorem bind {work : Work σ α} {image : Work τ α} {next : α → Work σ β} {onward : α → Work τ β}
    (first : work.Mirrors forget image)
    (second : ∀ value, (next value).Mirrors forget (onward value)) :
    (work >>= next).Mirrors forget (image >>= onward) := by
  intro state
  rw [start_bind, start_bind, first state]
  cases outcome : work.start state with
  | mk result reached =>
    cases result with
    | error failure => rfl
    | ok value => exact second value reached

theorem get_bind {next : σ → Work σ β} {onward : τ → Work τ β}
    (mirrors : ∀ state, (next state).Mirrors forget (onward (forget state))) :
    (get >>= next).Mirrors forget (get >>= onward) := by
  intro state
  rw [start_bind, start_bind, start_get, start_get]
  exact mirrors state state

theorem ite (condition : Prop) [Decidable condition] {work other : Work σ α}
    {image otherImage : Work τ α} (first : work.Mirrors forget image)
    (second : other.Mirrors forget otherImage) :
    (if condition then work else other).Mirrors forget
      (if condition then image else otherImage) := by
  split
  · exact first
  · exact second

end Mirrors

end Work

/-! ## Stations -/

namespace Station

variable {δ ε α : Type} {forget : δ → ε}

/-- The station with another view of its consumer. -/
def mapConsumer (forget : δ → ε) (station : Station δ) : Station ε :=
  ⟨station.bank, station.handled, forget station.consumer⟩

theorem mirrors_log (id : LogId) :
    (Station.log id).Mirrors (mapConsumer forget) (Station.log id) :=
  fun _ => rfl

theorem mirrors_modifyLog (id : LogId) (change : Log → Log) :
    (Station.modifyLog id change).Mirrors (mapConsumer forget) (Station.modifyLog id change) :=
  fun _ => rfl

theorem mirrors_countHandled (controller : ControllerId) :
    Work.Mirrors (mapConsumer forget) (modify (countHandled controller))
      (modify (countHandled controller)) :=
  fun _ => rfl

theorem mirrors_escalating {work : Work (Station δ) α} {image : Work (Station ε) α}
    (mirrors : work.Mirrors (mapConsumer forget) image) :
    (escalating work).Mirrors (mapConsumer forget) (escalating image) := by
  intro station
  rw [start_escalating, start_escalating, mirrors station]
  cases outcome : work.start station with
  | mk result reached => cases result <;> rfl

end Station

/-! ## Controllers and recorders -/

section Recording

variable {δ ε : Type} {forget : δ → ε} {drainer : Drainer δ} {image : Drainer ε}

/-- One drainer is the other one, as far as the other consumer keeps what the first does. -/
abbrev Drainer.Mirrors (forget : δ → ε) (drainer : Drainer δ) (image : Drainer ε) : Prop :=
  ∀ id, (drainer id).Mirrors (Station.mapConsumer forget) (image id)

theorem Controller.mirrors_handle (mirrors : Drainer.Mirrors forget drainer image)
    (id : ControllerId) (address : UInt64) :
    (Controller.handle ⟨id, drainer⟩ address).Mirrors (Station.mapConsumer forget)
      (Controller.handle ⟨id, image⟩ address) := by
  refine .get_bind fun station => ?_
  dsimp only [Station.mapConsumer]
  cases station.bank.owner? address with
  | none => exact .pure false
  | some log =>
    refine .ite _ (.pure false) ?_
    refine .bind (Station.mirrors_modifyLog log Log.flip) fun _ => ?_
    refine .bind (Station.mirrors_escalating (mirrors log)) fun _ => ?_
    exact .bind (Station.mirrors_countHandled id) fun _ => .pure true

/-- Recorders of the same log that differ only in what their consumers keep. -/
structure Recorder.Mirrors (forget : δ → ε) (recorder : Recorder δ) (image : Recorder ε) :
    Prop where
  log : image.log = recorder.log
  isInstrumented : image.isInstrumented = recorder.isInstrumented
  policy : image.policy = recorder.policy
  drainer : Drainer.Mirrors forget recorder.drainer image.drainer
  handler : ∃ handler imageHandler, recorder.handler = some handler
    ∧ image.handler = some imageHandler
    ∧ ∀ address, (handler address).Mirrors (Station.mapConsumer forget) (imageHandler address)

namespace Recorder

variable {recorder : Recorder δ} {image : Recorder ε}

theorem mirrors_tryAppend (mirrors : recorder.Mirrors forget image) (record : Record) :
    (recorder.tryAppend record).Mirrors (Station.mapConsumer forget) (image.tryAppend record) := by
  rw [tryAppend, tryAppend, mirrors.log]
  exact .bind (Station.mirrors_log _) fun _ =>
    .bind (Station.mirrors_modifyLog _ _) fun _ => .pure _

theorem mirrors_append (mirrors : recorder.Mirrors forget image) (record : Record) :
    (recorder.append record).Mirrors (Station.mapConsumer forget) (image.append record) := by
  refine .bind (mirrors_tryAppend mirrors record) fun outcome => ?_
  cases outcome with
  | error fault => exact .throw .fault
  | ok value => exact .pure ()

theorem mirrors_drain (mirrors : recorder.Mirrors forget image) :
    recorder.drain.Mirrors (Station.mapConsumer forget) image.drain := by
  rw [drain, drain, mirrors.log]
  refine .bind (Station.mirrors_escalating (mirrors.drainer _)) fun _ => ?_
  exact .bind (Station.mirrors_log _) fun log => .ite _ (.throw _) (.pure ())

theorem mirrors_storeGuarded (mirrors : recorder.Mirrors forget image) (record : Record) :
    (recorder.storeGuarded record).Mirrors (Station.mapConsumer forget)
      (image.storeGuarded record) := by
  obtain ⟨handler, imageHandler, handles, imageHandles, faults⟩ := mirrors.handler
  rw [storeGuarded, storeGuarded, handles, imageHandles]
  refine .bind (mirrors_tryAppend mirrors record) fun outcome => ?_
  cases outcome with
  | ok value => exact .pure ()
  | error fault =>
    refine .bind (faults fault.address) fun handled => ?_
    exact .ite _ (mirrors_append mirrors record) (.throw .fault)

theorem mirrors_storeChecked (mirrors : recorder.Mirrors forget image) (record : Record) :
    (recorder.storeChecked record).Mirrors (Station.mapConsumer forget)
      (image.storeChecked record) := by
  have drains := mirrors_drain mirrors
  have appends := mirrors_append mirrors record
  rw [storeChecked, storeChecked, mirrors.log, mirrors.policy]
  have checks : Work.Mirrors (Station.mapConsumer forget)
      (do if recorder.policy = OverflowPolicy.checkAfter then
            if (← Station.log recorder.log).room < reserve then recorder.drain)
      (do if recorder.policy = OverflowPolicy.checkAfter then
            if (← Station.log recorder.log).room < reserve then image.drain) :=
    .ite _ (.bind (Station.mirrors_log _) fun log => .ite _ drains (.pure ())) (.pure ())
  refine .bind (Station.mirrors_log _) fun log => .ite _ ?_ ?_
  · exact .bind drains fun _ => .bind appends fun _ => checks
  · exact .bind appends fun _ => checks

/-- **Recording does not look at its consumer.** -/
theorem mirrors_store (mirrors : recorder.Mirrors forget image) (record : Record) :
    (recorder.store record).Mirrors (Station.mapConsumer forget) (image.store record) := by
  rw [store, store, mirrors.isInstrumented, mirrors.policy]
  refine .ite _ ?_ (.pure ())
  cases recorder.policy with
  | guardPage => exact mirrors_storeGuarded mirrors record
  | checkBefore => exact mirrors_storeChecked mirrors record
  | checkAfter => exact mirrors_storeChecked mirrors record

theorem mirrors_answer (mirrors : recorder.Mirrors forget image) (call : Call) :
    (recorder.answer call).Mirrors (Station.mapConsumer forget) (image.answer call) := by
  rw [answer_eq_store, answer_eq_store]
  exact mirrors_store mirrors call.encoded

end Recorder

end Recording

end HeapAudit
