import HeapAudit.Text.Hex

/-!
# Identifiers of sessions and logs

A dump names its session and each of its logs by a 128-bit identifier.  Fresh
identifiers are drawn from a stream of random bytes, sixteen at a time; six bits
of each are fixed to mark the identifier as a random one.
-/

namespace HeapAudit

set_option autoImplicit false

/-- An identifier: sixteen bytes. -/
structure Uuid where
  bytes : List UInt8
  length_bytes : bytes.length = 16
  deriving DecidableEq

namespace Uuid

/-- The identifier of zero bytes. -/
def zero : Uuid := ⟨List.replicate 16 0, rfl⟩

instance : Inhabited Uuid := ⟨zero⟩

/-- The identifier with the given bytes, if there are sixteen of them. -/
def ofBytes? (bytes : List UInt8) : Option Uuid :=
  if sixteen : bytes.length = 16 then some ⟨bytes, sixteen⟩ else none

/-- The identifier that starts with the given bytes.  Missing bytes are zero, and bytes past the
sixteenth are dropped. -/
def ofPrefix (bytes : List UInt8) : Uuid := ⟨(bytes ++ List.replicate 16 0).take 16, by simp⟩

/-- The text form: groups of 4, 2, 2, 2 and 6 bytes divided by dashes. -/
def toText (id : Uuid) : String :=
  let group (start size : Nat) := Hex.ofBytes ((id.bytes.drop start).take size)
  "-".intercalate [group 0 4, group 4 2, group 6 2, group 8 2, group 10 6]

/-- The bits that mark an identifier as random: byte 6 holds the version, byte 8 the variant. -/
def stamp (index : Nat) (byte : UInt8) : UInt8 :=
  if index = 6 then (byte &&& 0x0f) ||| 0x40
  else if index = 8 then (byte &&& 0x3f) ||| 0x80
  else byte

end Uuid

/-- A stream of random bytes and the number of bytes already taken from it. -/
structure RandomSource where
  byteAt : Nat → UInt8
  taken : Nat := 0

namespace RandomSource

/-- Draws a fresh identifier. -/
def draw (source : RandomSource) : Uuid × RandomSource :=
  (⟨(List.range 16).map fun index => Uuid.stamp index (source.byteAt (source.taken + index)),
      by simp⟩,
    { source with taken := source.taken + 16 })

/-- Draws a number of fresh identifiers, in order. -/
def drawMany (source : RandomSource) : Nat → List Uuid × RandomSource
  | 0 => ([], source)
  | count + 1 =>
    let (id, source) := source.draw
    let (ids, source) := source.drawMany count
    (id :: ids, source)

theorem length_drawMany (source : RandomSource) (count : Nat) :
    (source.drawMany count).1.length = count := by
  induction count generalizing source with
  | zero => rfl
  | succ count ih => simp [drawMany, ih]

end RandomSource

end HeapAudit
