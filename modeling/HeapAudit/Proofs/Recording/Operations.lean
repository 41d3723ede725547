import HeapAudit.Proofs.Recording.Buffer

/-!
# Everything that can happen to logs

Logs are created, cloned, written, sealed, drained and closed, and the registry lists them, forgets
them, takes snapshots of them and releases these again.  A bank to which this happened in any order
(`Bank.operateAll`) is tended (`Bank.Tended`): its logs are sound, they lie apart from each other,
and the registry lists logs of the bank only.  A closed log stays in its place and may stay listed.
-/

namespace HeapAudit

set_option autoImplicit false

namespace Bank

/-! ## Operations -/

/-- What can be done with logs: the tasks of a bank, and closing. -/
inductive LogOperation where
  | task (task : Task)
  | close (id : LogId)
  deriving DecidableEq

/-- What can be done with logs and their registry. -/
inductive Operation where
  | onLogs (operation : LogOperation)
  | register (id : LogId)
  | unregister (id : LogId)
  | snapshot (id : LogId)
  | release (id : LogId)
  | closeRegistry
  deriving DecidableEq

/-- The bank that an operation leaves, whether it succeeds or not.  Logs that do not exist can be
neither listed nor copied. -/
def operate (bank : Bank) : Operation → Bank
  | .onLogs (.task task) => (bank.perform task).2
  | .onLogs (.close id) => bank.modify id Log.close
  | .register id => if id < bank.logs.size then bank.register id else bank
  | .unregister id => bank.unregister id
  | .snapshot id => if id < bank.logs.size then (bank.snapshot id).2 else bank
  | .release id => bank.release id
  | .closeRegistry => bank.closeRegistry

/-- The bank that operations leave, one after the other. -/
def operateAll (bank : Bank) (operations : List Operation) : Bank := operations.foldl operate bank

/-! ## Tended banks -/

/-- A bank of sound logs that lie apart, with a registry that lists logs of the bank only. -/
structure Tended (bank : Bank) : Prop where
  sound : bank.Sound
  known : ∀ id ∈ bank.registered, id < bank.logs.size

theorem tended_empty (memory : UInt64) : (empty memory).Tended :=
  ⟨.empty memory, fun _ listed => absurd listed List.not_mem_nil⟩

theorem Sound.close {bank : Bank} (sound : bank.Sound) (id : LogId) :
    (bank.modify id Log.close).Sound :=
  sound.modify id (fun known => (sound.logs id known).close) rfl rfl

namespace Tended

variable {bank after : Bank}

/-- The registry may only forget logs, and the bank only gain them. -/
theorem congr (tended : bank.Tended) (sound : after.Sound)
    (listed : ∀ id ∈ after.registered, id ∈ bank.registered)
    (grown : bank.logs.size ≤ after.logs.size) : after.Tended where
  sound := sound
  known := fun id member => Nat.lt_of_lt_of_le (tended.known id (listed id member)) grown

theorem add (tended : bank.Tended) {log : Log} (sound : (bank.add log).2.Sound) :
    (bank.add log).2.Tended :=
  tended.congr sound (fun _ listed => listed) (by rw [size_add]; exact Nat.le_succ _)

theorem create (tended : bank.Tended) (requested : UInt64) : (bank.create requested).2.Tended := by
  cases created : bank.create requested with
  | mk outcome reached =>
    cases outcome with
    | error failure =>
      rw [create_eq_error created]
      exact tended
    | ok id =>
      obtain ⟨log, fresh, -, rfl⟩ := create_eq_ok created
      exact tended.add (tended.sound.add_create fresh)

/-- A copy is one log more, and its number is that of a log of the bank. -/
theorem clone (tended : bank.Tended) {id : LogId} (known : id < bank.logs.size) :
    (bank.clone id).2.Tended ∧ ∀ copy, (bank.clone id).1 = .ok copy →
      copy < (bank.clone id).2.logs.size := by
  cases cloned : bank.clone id with
  | mk outcome reached =>
    cases outcome with
    | error failure =>
      rw [clone_eq_error cloned]
      exact ⟨tended, fun copy impossible => by cases impossible⟩
    | ok copy =>
      obtain ⟨log, fresh, rfl, rfl⟩ := clone_eq_ok cloned
      refine ⟨tended.add (tended.sound.add_clone known fresh), fun copy same => ?_⟩
      cases same
      rw [size_add]
      exact Nat.lt_succ_self _

theorem modify (tended : bank.Tended) {id : LogId} {change : Log → Log}
    (sound : (bank.modify id change).Sound) : (bank.modify id change).Tended :=
  tended.congr sound (fun _ listed => listed) (Nat.le_of_eq (size_modify bank id change).symm)

theorem perform (tended : bank.Tended) (task : Task) : (bank.perform task).2.Tended := by
  cases task with
  | create requested => exact tended.create requested
  | clone id =>
    by_cases known : id < bank.logs.size
    · rw [Bank.perform, if_pos known]
      exact (tended.clone known).1
    · rw [Bank.perform, if_neg known]
      exact tended
  | act id action =>
    by_cases known : id < bank.logs.size
    · rw [Bank.perform, if_pos known]
      have stays := Log.act_stays (tended.sound.logs id known) action
      exact tended.modify (tended.sound.modify id (fun _ => stays.sound) stays.base stays.halfBytes)
    · rw [Bank.perform, if_neg known]
      exact tended

theorem register (tended : bank.Tended) {id : LogId} (known : id < bank.logs.size) :
    (bank.register id).Tended := by
  refine ⟨tended.sound.congr rfl rfl, fun other listed => ?_⟩
  rcases List.mem_append.mp listed with before | new
  · exact tended.known other before
  · rw [List.mem_singleton.mp new]
    exact known

theorem unregister (tended : bank.Tended) (id : LogId) : (bank.unregister id).Tended :=
  tended.congr (tended.sound.congr rfl rfl) (fun _ listed => List.mem_of_mem_erase listed)
    (Nat.le_refl _)

theorem snapshot (tended : bank.Tended) {id : LogId} (known : id < bank.logs.size) :
    (bank.snapshot id).2.Tended := by
  have kept := tended.clone known
  rw [Bank.snapshot]
  cases cloned : bank.clone id with
  | mk outcome reached =>
    rw [cloned] at kept
    cases outcome with
    | error failure => exact kept.1
    | ok copy =>
      have listed := kept.1.register (kept.2 copy rfl)
      exact listed.congr (listed.sound.congr rfl rfl) (fun _ member => member) (Nat.le_refl _)

theorem release (tended : bank.Tended) (id : LogId) : (bank.release id).Tended := by
  rw [Bank.release]
  split
  · have forgotten := tended.unregister id
    exact forgotten.congr ((forgotten.sound.close id).congr rfl rfl) (fun _ listed => listed)
      (Nat.le_of_eq (size_modify _ id Log.close).symm)
  · exact tended

theorem sound_closeAll (ids : List LogId) : ∀ {bank : Bank}, bank.Sound →
    (ids.foldl (fun bank id => bank.modify id Log.close) bank).Sound := by
  induction ids with
  | nil => exact fun sound => sound
  | cons id rest onward => exact fun sound => onward (sound.close id)

theorem closeRegistry (tended : bank.Tended) : bank.closeRegistry.Tended :=
  ⟨(sound_closeAll bank.snapshots tended.sound).congr rfl rfl,
    fun _ listed => absurd listed List.not_mem_nil⟩

/-- **One operation** keeps a bank tended. -/
theorem operate (tended : bank.Tended) (operation : Operation) :
    (bank.operate operation).Tended := by
  cases operation with
  | onLogs operation =>
    cases operation with
    | task task => exact tended.perform task
    | close id => exact tended.modify (tended.sound.close id)
  | register id =>
    by_cases known : id < bank.logs.size
    · rw [Bank.operate, if_pos known]
      exact tended.register known
    · rw [Bank.operate, if_neg known]
      exact tended
  | unregister id => exact tended.unregister id
  | snapshot id =>
    by_cases known : id < bank.logs.size
    · rw [Bank.operate, if_pos known]
      exact tended.snapshot known
    · rw [Bank.operate, if_neg known]
      exact tended
  | release id => exact tended.release id
  | closeRegistry => exact tended.closeRegistry

/-- **Many operations**, by one operation after the other. -/
theorem operateAll (operations : List Operation) : ∀ {bank : Bank}, bank.Tended →
    (bank.operateAll operations).Tended := by
  induction operations with
  | nil => exact fun tended => tended
  | cons operation rest onward => exact fun tended => onward (tended.operate operation)

end Tended

end Bank

end HeapAudit
