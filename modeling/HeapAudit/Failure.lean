import HeapAudit.Text.Hex
import HeapAudit.Uuid

/-!
# How operations fail

An operation fails in one of three ways.  It may *refuse* its input; it may
*abort* in the middle, leaving behind whatever it had done so far; or a store may
hit write-protected memory, a *fault*.  Refusals and aborts carry a cause, and
every cause has one fixed wording.
-/

namespace HeapAudit

set_option autoImplicit false

/-- Why an operation refuses or aborts. -/
inductive Cause where
  /-- No subsystem has this name. -/
  | unknownSubsystem (name : String)
  /-- A log must hold at least one event. -/
  | emptyLog
  /-- A region of no bytes cannot be mapped. -/
  | emptyRegion
  /-- The size is no positive signed number. -/
  | invalidMapping
  /-- The address space has no room for the region. -/
  | noMemory
  /-- Protection of an empty range. -/
  | invalidProtection
  /-- The range to protect does not consist of whole pages. -/
  | unalignedRange (start stop : UInt64)
  /-- The range to protect leaves its region. -/
  | rangeOutside (start stop length : UInt64)
  /-- Access past the end of a sequence. -/
  | indexOutside (index length : UInt64)
  /-- A part that starts after its end. -/
  | partOutside (start stop : UInt64)
  /-- A run of events that no address space can hold. -/
  | runTooLong
  /-- A buffer that no address space can hold. -/
  | bufferTooLarge
  /-- Work was handed to a collaborator that was never set up. -/
  | missingCollaborator
  /-- A drain that left less than two free slots. -/
  | stillFull
  /-- The consumer of a full log gave up. -/
  | drainFailed
  /-- A reference field that is no word of its object. -/
  | badReferenceField (offset size : UInt64)
  /-- The heap is used up. -/
  | outOfSpace
  /-- The range of an object leaves the heap. -/
  | outsideHeap (start stop : UInt64)
  /-- The range of an object meets that of another one. -/
  | overlap (start stop : UInt64)
  /-- No object starts at the address. -/
  | noObject (address : UInt64)
  /-- The object holds no reference at the offset. -/
  | noReferenceSlot (offset address : UInt64)
  /-- An array copy above the configured limit. -/
  | copyTooLong (length limit : UInt64)
  /-- More events than a device buffer can hold. -/
  | deviceFull (events : Nat) (capacity : UInt64)
  /-- The surrounding work was called off. -/
  | cancelled
  /-- A write that leaves its store. -/
  | storeExceeded (start stop size : UInt64)
  /-- A dump larger than its store. -/
  | dumpTooLarge (size room : UInt64)
  /-- Fewer bytes than the fixed start of a dump. -/
  | dumpTruncated
  /-- The bytes do not start like a dump. -/
  | badMagic
  /-- The header of a dump is cut off. -/
  | headerTruncated
  /-- The header of a dump cannot be read. -/
  | headerMalformed
  /-- The events of a log are cut off. -/
  | eventsTruncated (log : Uuid)
  /-- A dump file without bytes. -/
  | emptyFile
  /-- There is no such file or directory. -/
  | missingFile
  /-- The graph cannot be built on the device and checked against the live heap at once. -/
  | deviceGraphChecked
  /-- The verifier of a subsystem found a problem. -/
  | verificationFailed (subsystem reason : String)
  deriving DecidableEq

namespace Cause

/-- The half-open range of two numbers, in decimal. -/
def range (start stop : UInt64) : String :=
  s!"[{start.toNat}, {stop.toNat})"

/-- The half-open range of two addresses. -/
def addressRange (start stop : UInt64) : String :=
  "[" ++ Hex.ofWord start ++ ", " ++ Hex.ofWord stop ++ ")"

/-- The wording of a cause. -/
def message : Cause → String
  | unknownSubsystem name => "subsystem '" ++ name ++ "' is unknown"
  | emptyLog => "log capacity must be positive"
  | emptyRegion => "region size must be positive"
  | invalidMapping => "memory allocation failed: invalid argument"
  | noMemory => "memory allocation failed: cannot allocate memory"
  | invalidProtection => "memory protection failed: invalid argument"
  | unalignedRange start stop => "protected range " ++ range start stop ++ " is not page-aligned"
  | rangeOutside start stop length =>
    "protected range " ++ range start stop ++ s!" exceeds region of {length.toNat} bytes"
  | indexOutside index length =>
    s!"runtime error: index out of range [{index.toNat}] with length {length.toNat}"
  | partOutside start stop =>
    s!"runtime error: slice bounds out of range [{start.toNat}:{stop.toNat}]"
  | runTooLong => "runtime error: unsafe.Slice: len out of range"
  | bufferTooLarge => "runtime error: makeslice: cap out of range"
  | missingCollaborator => "runtime error: invalid memory address or nil pointer dereference"
  | stillFull => "drained log is still full"
  | drainFailed => "drain failed"
  | badReferenceField offset size =>
    s!"reference offset {offset.toNat} is invalid for object of {size.toNat} words"
  | outOfSpace => "out of space"
  | outsideHeap start stop => "object " ++ addressRange start stop ++ " is outside the heap"
  | overlap start stop => "object " ++ addressRange start stop ++ " overlaps object"
  | noObject address => "object " ++ Hex.ofWord address ++ " does not exist"
  | noReferenceSlot offset address =>
    s!"offset {offset.toNat} of object " ++ Hex.ofWord address ++ " is not a reference slot"
  | copyTooLong length limit =>
    s!"array copy length {length.toNat} exceeds limit {limit.toNat}"
  | deviceFull events capacity =>
    s!"{events} events exceed device buffer capacity {capacity.toNat}"
  | cancelled => "context canceled"
  | storeExceeded start stop size =>
    "write " ++ range start stop ++ s!" exceeds store of {size.toNat} bytes"
  | dumpTooLarge size room =>
    s!"dump of {size.toNat} bytes exceeds store of {room.toNat} bytes"
  | dumpTruncated => "dump is truncated"
  | badMagic => "invalid dump magic"
  | headerTruncated => "dump header is truncated"
  | headerMalformed => "dump header is malformed"
  | eventsTruncated log => "events of log " ++ log.toText ++ " are truncated"
  | emptyFile => "dump file is empty"
  | missingFile => "file does not exist"
  | deviceGraphChecked =>
    "building graph on device requires checking against live heap to be disabled"
  | verificationFailed subsystem reason =>
    "verification of subsystem " ++ subsystem ++ " failed: " ++ reason

end Cause

/-- The ways an operation fails. -/
inductive Failure where
  /-- The input is refused. -/
  | refusal (cause : Cause)
  /-- The operation stops in the middle. -/
  | abort (cause : Cause)
  /-- A store hits write-protected memory. -/
  | fault
  deriving DecidableEq

/-- A refusal met in the middle of larger work aborts that work. -/
def Failure.escalate : Failure → Failure
  | refusal cause => abort cause
  | other => other

end HeapAudit
