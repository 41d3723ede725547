import HeapAudit.Event.Frame
import HeapAudit.Failure
import HeapAudit.Replay.Copy

/-!
# Replaying recorded events

Segments of recorded slots are replayed into a shadow table in two passes over
their frames.  The first pass creates the nodes of all allocations; the second one
applies every other effect in order.  Moves are remembered during the second pass,
and in the end every edge that points to a moved object is retargeted once.

A copy above the configured length limit stops the replay.  The table reached by
then is kept, without the final retargeting.
-/

namespace HeapAudit.Replay

set_option autoImplicit false

/-- What a replay needs to know. -/
structure Config where
  /-- The addresses of the heap, by which field stores are recognised. -/
  range : HeapRange
  /-- The reference fields of the instance at an address, if its layout is known. -/
  referenceOffsets? : UInt64 → Option (List UInt64)
  /-- The greatest length of an array copy; zero stands for no limit. -/
  copyLimit : UInt64

/-- What a replay counts. -/
structure Stats where
  events : Nat := 0
  nodes : Nat := 0
  edges : Nat := 0
  unrecognized : Nat := 0
  unresolvedFieldSets : Nat := 0
  unresolvedCopies : Nat := 0
  moves : Nat := 0
  cleared : Nat := 0
  deriving DecidableEq, Inhabited

/-- The state between two frames of the second pass. -/
structure Progress where
  table : Table
  /-- Where moved objects went; the last move of an address counts. -/
  relocations : WordMap UInt64
  stats : Stats

/-- A replay that was stopped, with the state it had reached. -/
structure Halt where
  cause : Cause
  reached : Progress

/-! ## First pass -/

/-- The size in words of an object recorded in bytes; a size that is no multiple of a word is
taken as a number of words. -/
def wordCount (size : UInt64) : UInt64 := if size % 8 = 0 then size / 8 else size

/-- Creates the node of an allocation. -/
def allocate (table : Table) (frame : Frame) : Table :=
  let event := frame.event
  match frame.kind, frame.operand with
  | .newObject, _ | .newArray, _ | .newPrimitiveArray, _ =>
    table.insert event.dst frame.kind event.src
  | .newObjectSizeInBits, _ => table.insert event.dst .newObject (event.src / 8)
  | .fieldSetWithNewObject, some operand =>
    table.insert event.src .newObject (wordCount operand.src)
  | .copyNewObject, _ => table.insert event.dst .newObject ((event.src &&& 0xffff) / 8)
  | .copyNewArray, some _ => table.insert event.dst .newArray 0
  | .copyNewArrayOfSameLength, _ => table.insert event.dst .newArray 0
  | _, _ => table

/-! ## Second pass -/

namespace Progress

/-- Counts a frame that has no meaning. -/
def skip (progress : Progress) : Progress :=
  { progress with
    stats := { progress.stats with unrecognized := progress.stats.unrecognized + 1 } }

/-- Counts a copy between unknown objects. -/
def missCopy (progress : Progress) : Progress :=
  { progress with
    stats := { progress.stats with unresolvedCopies := progress.stats.unresolvedCopies + 1 } }

/-- Records a reference in the slot at an address. -/
def setField (progress : Progress) (slot value : UInt64) : Progress :=
  match progress.table.lookup? slot with
  | none =>
    { progress with
      stats := { progress.stats with
        unresolvedFieldSets := progress.stats.unresolvedFieldSets + 1 } }
  | some (start, _) => { progress with table := progress.table.setEdge start (slot - start) value }

/-- Moves an object. -/
def move (progress : Progress) (src dst : UInt64) : Progress where
  table := progress.table.relocate src dst
  relocations := progress.relocations.insert src dst
  stats := { progress.stats with moves := progress.stats.moves + 1 }

/-- Removes the objects of an address range. -/
def clear (progress : Progress) (start stop : UInt64) : Progress :=
  { progress with
    table := progress.table.clear start stop
    stats := { progress.stats with
      cleared := progress.stats.cleared + (progress.table.cleared start stop).length } }

/-- Copies the fields of an instance: those of its layout, or else those seen in the source, as
far as the destination reaches. -/
def copyObject (config : Config) (progress : Progress) (src dst : UInt64) : Progress :=
  match progress.table.find? src, progress.table.find? dst with
  | some source, some target =>
    let offsets := (config.referenceOffsets? src).getD source.edges.keys
    let covered := offsets.filter fun offset => offset < progress.table.extent target
    { progress with table := progress.table.copyFields src dst covered }
  | _, _ => progress.missCopy

/-- Copies a run of slots unless it is longer than the limit. -/
def copySlots (config : Config) (progress : Progress)
    (src dst srcOffset dstOffset length : UInt64) : Except Halt Progress :=
  if 0 < config.copyLimit && config.copyLimit < length then
    .error ⟨.copyTooLong length config.copyLimit, progress⟩
  else
    .ok { progress with table := progress.table.copySlots src dst srcOffset dstOffset length }

/-- Copies elements between two addresses inside known objects. -/
def copyElements (config : Config) (progress : Progress) (src dst length : UInt64) :
    Except Halt Progress :=
  match progress.table.lookup? src, progress.table.lookup? dst with
  | some (source, _), some (target, _) =>
    progress.copySlots config source target (src - source) (dst - target) length
  | _, _ => .ok progress.missCopy

/-- Copies elements inside one array. -/
def copyWithin (config : Config) (progress : Progress)
    (array length srcIndex dstIndex : UInt64) : Except Halt Progress :=
  match progress.table.find? array with
  | none => .ok progress.missCopy
  | some _ =>
    let base := progress.table.arrayBase
    progress.copySlots config array array (base + srcIndex * wordSize) (base + dstIndex * wordSize)
      length

/-- Gives the array at an address its length and copies its elements from another one. -/
def fillArray (config : Config) (progress : Progress) (src dst length srcIndex : UInt64) :
    Except Halt Progress :=
  let sized := { progress with
    table := progress.table.update dst fun node => { node with size := length } }
  let base := progress.table.arrayBase
  sized.copySlots config src dst (base + srcIndex * wordSize) base length

/-- Fills a new array from a part of another one. -/
def copyNewArray (config : Config) (progress : Progress) (src dst length srcIndex : UInt64) :
    Except Halt Progress :=
  match progress.table.find? src, progress.table.find? dst with
  | some _, some _ => progress.fillArray config src dst length srcIndex
  | _, _ => .ok progress.missCopy

/-- Fills a new array from the whole of another one. -/
def copyWholeArray (config : Config) (progress : Progress) (src dst : UInt64) :
    Except Halt Progress :=
  match progress.table.find? src, progress.table.find? dst with
  | some source, some _ => progress.fillArray config src dst source.size 0
  | _, _ => .ok progress.missCopy

/-- Applies the effect of a frame other than an allocation. -/
def apply (config : Config) (progress : Progress) (frame : Frame) : Except Halt Progress :=
  let event := frame.event
  match frame.kind, frame.operand with
  | .newObject, _ | .newArray, _ | .newPrimitiveArray, _ | .newObjectSizeInBits, _ => .ok progress
  | .fieldSet, _ | .arrayElemSet, _ => .ok (progress.setField event.dst event.src)
  | .fieldSetWithNewObject, some _ => .ok (progress.setField event.dst event.src)
  | .copyObject, _ => .ok (progress.copyObject config event.src event.dst)
  | .copyNewObject, _ => .ok (progress.copyObject config (event.src >>> 16) event.dst)
  | .copyArray, some operand => progress.copyElements config event.src event.dst operand.src
  | .copySameArray, some operand =>
    progress.copyWithin config event.src event.dst operand.src operand.dst
  | .copyNewArray, some operand =>
    progress.copyNewArray config event.src event.dst operand.src operand.dst
  | .copyNewArrayOfSameLength, _ => progress.copyWholeArray config event.src event.dst
  | .moveObject, _ => .ok (progress.move event.src event.dst)
  | .clearContiguousSpace, _ => .ok (progress.clear event.src event.dst)
  | _, _ => .ok progress.skip

end Progress

/-! ## The whole replay -/

/-- The outcome of a replay and the table it leaves. -/
structure Replayed where
  outcome : Except Cause Stats
  table : Table

/-- The frames of all segments, in order. -/
def frames (config : Config) (segments : List (List Event)) : List Frame :=
  segments.flatMap (Frame.ofSlots config.range)

/-- Retargets the edges to moved objects and completes the counts. -/
def finish (segments : List (List Event)) (progress : Progress) : Replayed :=
  let table := progress.table.retarget progress.relocations
  { outcome := .ok { progress.stats with
      events := segments.flatten.length
      nodes := table.size
      edges := table.edgeCount }
    table := table }

/-- **Replays segments into a table.** -/
def run (config : Config) (table : Table) (segments : List (List Event)) : Replayed :=
  let frames := frames config segments
  let start : Progress := ⟨frames.foldl allocate table, ∅, {}⟩
  match frames.foldlM (Progress.apply config) start with
  | .ok progress => finish segments progress
  | .error halt => ⟨.error halt.cause, halt.reached.table⟩

end HeapAudit.Replay
