import HeapAudit.Failure

/-!
# Subsystems selected for verification

A verification covers a set of subsystems, kept as a word of flags.  Lists of
names, divided by blanks or commas, select subsystems; the empty list selects all.
-/

namespace HeapAudit

set_option autoImplicit false

/-- The subsystems that can be verified, in the order of their flags. -/
inductive Subsystem where
  | threads
  | heap
  | symbolTable
  | stringTable
  | codeCache
  | dictionary
  | classLoaderDataGraph
  | metaspace
  | jniHandles
  | codeCacheOops
  | resolvedMethodTable
  | stringDedup
  deriving DecidableEq

namespace Subsystem

/-- Every subsystem, by increasing flag. -/
def all : List Subsystem :=
  [threads, heap, symbolTable, stringTable, codeCache, dictionary, classLoaderDataGraph,
    metaspace, jniHandles, codeCacheOops, resolvedMethodTable, stringDedup]

/-- The flag of a subsystem. -/
def flag : Subsystem → UInt64
  | threads => 0x001
  | heap => 0x002
  | symbolTable => 0x004
  | stringTable => 0x008
  | codeCache => 0x010
  | dictionary => 0x020
  | classLoaderDataGraph => 0x040
  | metaspace => 0x080
  | jniHandles => 0x100
  | codeCacheOops => 0x200
  | resolvedMethodTable => 0x400
  | stringDedup => 0x800

/-- The name of a subsystem. -/
def name : Subsystem → String
  | threads => "threads"
  | heap => "heap"
  | symbolTable => "symbol_table"
  | stringTable => "string_table"
  | codeCache => "codecache"
  | dictionary => "dictionary"
  | classLoaderDataGraph => "classloader_data_graph"
  | metaspace => "metaspace"
  | jniHandles => "jni_handles"
  | codeCacheOops => "codecache_oops"
  | resolvedMethodTable => "resolved_method_table"
  | stringDedup => "stringdedup"

/-- The subsystem with a name; the code cache has a second spelling. -/
def ofName? (text : String) : Option Subsystem :=
  if text = "code_cache" then some codeCache else all.find? fun subsystem => subsystem.name = text

/-- The subsystems checked by registered verifiers rather than by the audit itself. -/
def external : List Subsystem := all.drop 2

end Subsystem

/-- A set of subsystems as a word of flags; flags without a subsystem are allowed. -/
structure SubsystemSet where
  bits : UInt64
  deriving DecidableEq

namespace SubsystemSet

/-- No subsystem. -/
def empty : SubsystemSet := ⟨0⟩

/-- Every subsystem. -/
def full : SubsystemSet := ⟨0xfff⟩

/-- Whether two sets of flags meet. -/
def meets (set other : SubsystemSet) : Bool := set.bits &&& other.bits != 0

/-- Whether a subsystem is selected. -/
def has (set : SubsystemSet) (subsystem : Subsystem) : Bool := set.meets ⟨subsystem.flag⟩

/-- Selects one more subsystem. -/
def add (set : SubsystemSet) (subsystem : Subsystem) : SubsystemSet :=
  ⟨set.bits ||| subsystem.flag⟩

/-- The names of the selected subsystems, by increasing flag. -/
def names (set : SubsystemSet) : List String :=
  (Subsystem.all.filter set.has).map Subsystem.name

/-- The names divided by commas. -/
def toText (set : SubsystemSet) : String := ",".intercalate set.names

/-- Whether a character divides names. -/
def isDivider (character : Char) : Bool := character = ' ' || character = ','

/-- The non-empty runs of characters between dividers; `word` holds the run being read, its last
character first. -/
def words (word : List Char) : List Char → List String
  | [] => if word.isEmpty then [] else [String.ofList word.reverse]
  | character :: rest =>
    if isDivider character then
      if word.isEmpty then words [] rest else String.ofList word.reverse :: words [] rest
    else words (character :: word) rest

/-- Reads a list of names. -/
def parse (list : String) : Except Cause SubsystemSet :=
  match words [] list.toList with
  | [] => .ok full
  | selected => selected.foldlM
    (fun set text => match Subsystem.ofName? text with
      | some subsystem => .ok (set.add subsystem)
      | none => .error (.unknownSubsystem text))
    empty

end SubsystemSet

end HeapAudit
