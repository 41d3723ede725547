import HeapAudit.Audit.Diagnostic
import HeapAudit.Log.Bank
import HeapAudit.Offload.Device

/-!
# Handing events over to a device

Producers publish events and signal that there is work; the offload loop takes the
work up.  There are two modes.  When the graph is built on the device, the loop
transfers the oldest segment of every registered log to the buffer of that log, and
producers wait for it.  Otherwise it copies the events published last to the
staging buffer, and nobody waits.

Published events are not copied at once: a publication that points into a log
shows whatever the slots hold when the loop gets to it.
-/

namespace HeapAudit

set_option autoImplicit false

/-- What a producer publishes. -/
inductive Publication where
  /-- Events of their own. -/
  | own (events : List Event)
  /-- The given number of slots of a half of a log. -/
  | window (log : LogId) (side : Side) (count : Nat)
  deriving DecidableEq

/-- The events that a publication shows. -/
def Publication.read (bank : Bank) : Publication → List Event
  | own events => events
  | window log side count => ((bank.log log).half side).take count

/-- The state of the hand-over. -/
structure Coordinator where
  /-- Whether whole logs are transferred to build the graph on the device. -/
  buildsGraph : Bool
  device : Device
  /-- What was published last. -/
  publication : Publication := .own []
  /-- Whether work was signalled and not yet taken up. -/
  isSignalled : Bool := false
  /-- The generation of the last signal. -/
  signalled : Nat := 0
  /-- The last generation covered by a transfer. -/
  completed : Nat := 0
  /-- The logs with a buffer on the device; the number of a buffer is its place. -/
  buffered : List LogId := []

namespace Coordinator

/-- Publishes events under the next generation. -/
def publish (coordinator : Coordinator) (publication : Publication) : Coordinator :=
  { coordinator with
    publication := publication
    signalled := coordinator.signalled + 1 }

/-- Wakes the loop up.  There is one token for all the work: one that is still there will do. -/
def wake (coordinator : Coordinator) : Coordinator := { coordinator with isSignalled := true }

/-- Publishes events and signals work. -/
def signal (coordinator : Coordinator) (publication : Publication) : Coordinator :=
  (coordinator.publish publication).wake

/-- Publishes the oldest segment of a log.  A closed log has no segment. -/
def signalLog (coordinator : Coordinator) (bank : Bank) (id : LogId) :
    Except Failure Unit × Coordinator :=
  let log := bank.log id
  match log.pendingSides with
  | [] => (.error (.abort (.indexOutside 0 0)), coordinator)
  | side :: _ => (.ok (), coordinator.signal (.window id side (log.half side).count.toNat))

/-- Whether a transfer that began after the signal of a generation is complete. -/
def isCovered (coordinator : Coordinator) (generation : Nat) : Bool :=
  generation ≤ coordinator.completed

/-- The number of the buffer of a log. -/
def buffer? (coordinator : Coordinator) (id : LogId) : Option Nat :=
  coordinator.buffered.idxOf? id

/-- Gives a log a buffer unless it has one. -/
def assign (coordinator : Coordinator) (id : LogId) : Coordinator :=
  if coordinator.buffered.contains id then coordinator
  else { coordinator with buffered := coordinator.buffered ++ [id] }

/-- Transfers the oldest segment of a log; a closed log only gets its buffer. -/
def transferLog (bank : Bank) (coordinator : Coordinator) (id : LogId) :
    Except Cause Unit × Coordinator :=
  let coordinator := coordinator.assign id
  match (bank.log id).segments with
  | [] => (.ok (), coordinator)
  | segment :: _ =>
    let number := ((coordinator.buffer? id).getD 0).toUInt64
    let (outcome, device) := coordinator.device.transfer number segment
    (outcome, { coordinator with device := device })

/-- Transfers logs in turn until one fails. -/
def transferLogs (bank : Bank) : Coordinator → List LogId → Except Cause Unit × Coordinator
  | coordinator, [] => (.ok (), coordinator)
  | coordinator, id :: rest =>
    match transferLog bank coordinator id with
    | (.error cause, coordinator) => (.error cause, coordinator)
    | (.ok (), coordinator) => transferLogs bank coordinator rest

/-- Copies the publication to the staging buffer. -/
def copyPublication (bank : Bank) (coordinator : Coordinator) : Except Cause Unit × Coordinator :=
  let (outcome, device) := coordinator.device.copy (coordinator.publication.read bank)
  (outcome, { coordinator with device := device })

/-- Takes the signalled work up. -/
def receive (coordinator : Coordinator) : Coordinator := { coordinator with isSignalled := false }

/-- Records that the transfer for a generation is complete. -/
def complete (coordinator : Coordinator) (generation : Nat) : Coordinator :=
  { coordinator with completed := generation }

/-- What one turn of the offload loop comes to. -/
inductive Turn where
  /-- There was no work. -/
  | idle
  /-- The work is done; a copy that failed is only reported. -/
  | worked (diagnostics : List Diagnostic)
  /-- A transfer failed, which ends the loop. -/
  | failed (cause : Cause)

/-- **One turn of the offload loop.** -/
def turn (bank : Bank) (coordinator : Coordinator) : Turn × Coordinator :=
  if !coordinator.isSignalled then (.idle, coordinator)
  else
    let coordinator := coordinator.receive
    if coordinator.buildsGraph then
      let generation := coordinator.signalled
      match transferLogs bank coordinator bank.registered with
      | (.error cause, coordinator) => (.failed cause, coordinator)
      | (.ok (), coordinator) => (.worked [], coordinator.complete generation)
    else
      match coordinator.copyPublication bank with
      | (.error cause, coordinator) => (.worked [.copyFailed cause], coordinator)
      | (.ok (), coordinator) => (.worked [], coordinator)

end Coordinator

end HeapAudit
