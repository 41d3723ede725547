import HeapAudit.Log.Basic

/-!
# The bank of logs and its registry

All logs live in one bank, which hands out addresses so that no two regions meet.
A log is known by its number, in order of creation.  The registry lists the logs
that take part in draining, the oldest first; a log may be listed more than once.
A snapshot is a copy of a log that the registry owns: it is closed for good when it
is released.
-/

namespace HeapAudit

set_option autoImplicit false

/-- The number of a log, in order of creation. -/
abbrev LogId := Nat

/-- Every log ever created, with the registry. -/
structure Bank where
  /-- The memory of the machine. -/
  memory : UInt64
  logs : Array Log := #[]
  /-- The address of the next region. -/
  nextBase : UInt64 := 0x400000000000
  /-- The registered logs, the oldest first. -/
  registered : List LogId := []
  /-- The snapshots that are not released. -/
  snapshots : List LogId := []
  deriving Inhabited

namespace Bank

/-- The bank without logs, on a machine with the given memory. -/
def empty (memory : UInt64) : Bank := { memory := memory }

/-- The log with a number. -/
def log (bank : Bank) (id : LogId) : Log := bank.logs.getD id default

/-- Changes the log with a number. -/
def modify (bank : Bank) (id : LogId) (change : Log → Log) : Bank :=
  { bank with logs := bank.logs.modify id change }

/-- The room for a new region; there is none once the addresses are used up. -/
def room (bank : Bank) : UInt64 := Memory.roomAt bank.memory bank.nextBase

/-- Adds a log; its region and one page behind it are taken. -/
def add (bank : Bank) (log : Log) : LogId × Bank :=
  (bank.logs.size,
    { bank with
      logs := bank.logs.push log
      nextBase := bank.nextBase + Log.regionBytes log.halfBytes + Memory.pageSize })

/-- Creates a log. -/
def create (bank : Bank) (requested : UInt64) : Except Failure LogId × Bank :=
  match Log.create bank.nextBase bank.room requested with
  | .error failure => (.error failure, bank)
  | .ok log =>
    let (id, bank) := bank.add log
    (.ok id, bank)

/-- Clones a log. -/
def clone (bank : Bank) (id : LogId) : Except Failure LogId × Bank :=
  match (bank.log id).clone bank.nextBase bank.room with
  | .error failure => (.error failure, bank)
  | .ok log =>
    let (id, bank) := bank.add log
    (.ok id, bank)

/-! ## The registry -/

/-- Registers a log as the youngest one. -/
def register (bank : Bank) (id : LogId) : Bank :=
  { bank with registered := bank.registered ++ [id] }

/-- Unregisters a log once. -/
def unregister (bank : Bank) (id : LogId) : Bank :=
  { bank with registered := bank.registered.erase id }

/-- Registers a clone of a log that the registry owns. -/
def snapshot (bank : Bank) (id : LogId) : Except Failure LogId × Bank :=
  match bank.clone id with
  | (.error failure, bank) => (.error failure, bank)
  | (.ok copy, bank) =>
    (.ok copy, { bank.register copy with snapshots := copy :: bank.snapshots })

/-- Whether the registry owns a log as a snapshot. -/
def isSnapshot (bank : Bank) (id : LogId) : Bool := bank.snapshots.contains id

/-- Unregisters and closes a snapshot; any other log is left alone. -/
def release (bank : Bank) (id : LogId) : Bank :=
  if bank.isSnapshot id then
    { (bank.unregister id).modify id Log.close with snapshots := bank.snapshots.erase id }
  else bank

/-- Closes all snapshots and empties the registry. -/
def closeRegistry (bank : Bank) : Bank :=
  { bank.snapshots.foldl (fun bank id => bank.modify id Log.close) bank with
    registered := []
    snapshots := [] }

/-- The first registered log whose region holds an address. -/
def owner? (bank : Bank) (address : UInt64) : Option LogId :=
  bank.registered.find? fun id => (bank.log id).owns address

end Bank

end HeapAudit
