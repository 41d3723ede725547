import HeapAudit.Dump.Header
import HeapAudit.Dump.Store
import HeapAudit.Offload.Device
import HeapAudit.Replay.Run

/-!
# Dumps

A dump holds the events of a list of logs.  It starts with a mark and the size of
its header, both of eight bytes; the header follows, padded with zeros to a multiple
of sixteen bytes, and then the events of each log as pairs of words.

Reading checks the declared sizes in 64-bit words, which wrap around; sizes that
only fit because of that abort the reading.
-/

namespace HeapAudit

set_option autoImplicit false

/-- A log of a dump. -/
structure DumpLog where
  id : Uuid
  events : List Event
  deriving DecidableEq

/-- The content of a dump. -/
structure Dump where
  session : Uuid
  logs : List DumpLog
  deriving DecidableEq

namespace Dump

/-- The mark at the start of every dump. -/
def magic : List UInt8 := [0x73, 0x68, 0x61, 0x64, 0x6f, 0x77, 0x65, 0x76]

/-- The number of bytes in front of the header. -/
def preambleSize : UInt64 := 16

/-- Where the events start, behind a header of the given size. -/
def eventsOffset (headerSize : UInt64) : UInt64 :=
  (preambleSize + headerSize + Event.byteSize - 1) / Event.byteSize * Event.byteSize

/-- The events of all logs, in the order of the dump. -/
def segments (dump : Dump) : List (List Event) := dump.logs.map DumpLog.events

/-! ## Writing -/

/-- The header for a session and logs with the given identifiers. -/
def headerFor (session : Uuid) (ids : List Uuid) (logs : List (List Event)) : DumpHeader :=
  ⟨session, (ids.zip logs).map fun (id, events) => ⟨id, events.length.toUInt64⟩⟩

/-- The number of bytes of a dump with a header of the given size. -/
def sizeFor (headerSize : Nat) (logs : List (List Event)) : UInt64 :=
  eventsOffset headerSize.toUInt64 + logs.flatten.length.toUInt64 * Event.byteSize

/-- The header of a dump with fresh identifiers, and the size of the dump. -/
def encode (session : Uuid) (logs : List (List Event)) (random : RandomSource) :
    (List UInt8 × UInt64) × RandomSource :=
  let (ids, random) := random.drawMany logs.length
  let header := (headerFor session ids logs).write
  ((header, sizeFor header.length logs), random)

/-- The bytes in front of the header. -/
def preamble (headerSize : Nat) : List UInt8 := magic ++ LittleEndian.encode headerSize.toUInt64

/-- Writes the events of logs one after another, from an offset on.  A log without events is
passed over. -/
def writeEvents : Store → UInt64 → List (List Event) → Except Failure Unit × Store
  | store, _, [] => (.ok (), store)
  | store, offset, events :: rest =>
    if events.isEmpty then writeEvents store offset rest
    else match store.write offset (Event.bytes events) with
      | .error failure => (.error failure, store)
      | .ok store =>
        writeEvents store (offset + events.length.toUInt64 * Event.byteSize) rest

/-- Writes a dump with a given header into a store. -/
def writeParts (store : Store) (header : List UInt8) (logs : List (List Event)) :
    Except Failure Unit × Store :=
  match store.write 0 (preamble header.length) with
  | .error failure => (.error failure, store)
  | .ok store =>
    match store.write preambleSize header with
    | .error failure => (.error failure, store)
    | .ok store => writeEvents store (eventsOffset header.length.toUInt64) logs

/-- **Writes a dump into a store** that declares the given room for it. -/
def write (store : Store) (room : UInt64) (session : Uuid) (logs : List (List Event))
    (random : RandomSource) : (Except Failure Unit × Store) × RandomSource :=
  let ((header, size), random) := encode session logs random
  if room < size then ((.error (.refusal (.dumpTooLarge size room)), store), random)
  else (writeParts store header logs, random)

/-! ## Reading -/

/-- The given number of events at the start of a byte string. -/
def readEvents : Nat → List UInt8 → List Event
  | 0, _ => []
  | count + 1, bytes =>
    ⟨LittleEndian.decode (bytes.take 8), LittleEndian.decode ((bytes.drop 8).take 8)⟩
      :: readEvents count (bytes.drop 16)

/-- Reads the events of a log that starts at an offset. -/
def readLog (data : List UInt8) (offset : UInt64) (log : LogHeader) : Except Failure DumpLog :=
  let length := data.length.toUInt64
  if length < offset + log.events * Event.byteSize then .error (.refusal (.eventsTruncated log.id))
  else if log.events = 0 then .ok ⟨log.id, []⟩
  else if length ≤ offset then .error (.abort (.indexOutside offset length))
  else if data.length < offset.toNat + log.events.toNat * 16 then .error (.abort .runTooLong)
  else .ok ⟨log.id, readEvents log.events.toNat (data.drop offset.toNat)⟩

/-- Reads the events of logs that follow each other from an offset on. -/
def readLogs (data : List UInt8) : UInt64 → List LogHeader → Except Failure (List DumpLog)
  | _, [] => .ok []
  | offset, log :: rest => do
    let first ← readLog data offset log
    let others ← readLogs data (offset + log.events * Event.byteSize) rest
    return first :: others

/-- **Reads a dump.** -/
def decode (data : List UInt8) : Except Failure Dump := do
  let length := data.length.toUInt64
  if length < preambleSize then throw (.refusal .dumpTruncated)
  if data.take 8 ≠ magic then throw (.refusal .badMagic)
  let headerSize := LittleEndian.decode ((data.drop 8).take 8)
  let stop := preambleSize + headerSize
  if length < stop then throw (.refusal .headerTruncated)
  if stop < preambleSize then throw (.abort (.partOutside preambleSize stop))
  match DumpHeader.read? ((data.drop 16).take headerSize.toNat) with
  | none => throw (.refusal .headerMalformed)
  | some header =>
    return ⟨header.session, ← readLogs data (eventsOffset headerSize) header.logs⟩

/-- Reads the dump in a file. -/
def load (file : List UInt8) : Except Failure Dump :=
  if file.isEmpty then .error (.refusal .emptyFile) else decode file

/-! ## Saving and capturing -/

/-- Writes a dump with a fresh session into a store of its own size, on a machine with the given
memory.  The identifiers of the logs are drawn once for the size and once more for the dump. -/
def save (memory : UInt64) (logs : List (List Event)) (random : RandomSource) :
    Except Failure (Uuid × List UInt8) × RandomSource :=
  let (session, random) := random.draw
  let ((_, size), random) := encode session logs random
  match Store.create memory size with
  | .error cause => (.error (.refusal cause), random)
  | .ok store =>
    match write store store.size session logs random with
    | ((.error failure, _), random) => (.error failure, random)
    | ((.ok (), store), random) => (.ok (session, store.bytes), random)

/-- Writes a dump and reads it back. -/
def capture (memory : UInt64) (logs : List (List Event)) (random : RandomSource) :
    Except Failure Dump × RandomSource :=
  let (saved, random) := save memory logs random
  (saved.bind fun (_, bytes) => decode bytes, random)

/-- **Replays a dump into a new table.** -/
def replay (dump : Dump) (config : Replay.Config) (arrayBase : UInt64) : Replay.Replayed :=
  Replay.run config (.empty arrayBase) dump.segments

end Dump

end HeapAudit
