import HeapAudit.Cbor.Reader
import HeapAudit.Cbor.Writer
import HeapAudit.Uuid

/-!
# The header of a dump

The header names the session of a dump and, for each of its logs, an identifier and
the number of events.  It is written as the CBOR map

    {1: session, 2: [{1: identifier, 2: events}, …]}

and read from any well-formed item of that shape: a key may also be the digit as
text, an identifier may also be an array of its bytes, null stands for a missing part,
entries with other keys are skipped, and of two entries for the same part the first
counts.
-/

namespace HeapAudit

set_option autoImplicit false

/-- What a header says of a log. -/
structure LogHeader where
  id : Uuid := .zero
  events : UInt64 := 0
  deriving DecidableEq, Inhabited

/-- The header of a dump. -/
structure DumpHeader where
  session : Uuid := .zero
  logs : List LogHeader := []
  deriving DecidableEq, Inhabited

/-! ## Writing -/

/-- The written form of a log header. -/
def LogHeader.write (log : LogHeader) : List UInt8 :=
  Cbor.writeMap 2 ++ Cbor.writeUnsigned 1 ++ Cbor.writeBytes log.id.bytes
    ++ Cbor.writeUnsigned 2 ++ Cbor.writeUnsigned log.events

/-- The written form of a header. -/
def DumpHeader.write (header : DumpHeader) : List UInt8 :=
  Cbor.writeMap 2 ++ Cbor.writeUnsigned 1 ++ Cbor.writeBytes header.session.bytes
    ++ Cbor.writeUnsigned 2 ++ Cbor.writeArray header.logs.length
    ++ header.logs.flatMap LogHeader.write

/-! ## Reading -/

namespace Cbor.Item

/-- Whether an item can be the key of an entry: a signed integer, or well-formed text. -/
def isKey : Item → Bool
  | unsigned _ => true
  | negative value => value < 0x8000000000000000
  | text chunks => chunks.all fun chunk => ByteArray.validateUTF8 ⟨chunk.toArray⟩
  | _ => false

/-- The entries of a map; null has none. -/
def entries? (item : Item) : Option (List (Item × Item)) :=
  match item.untagged? with
  | some (map entries) => if entries.all fun entry => entry.1.isKey then some entries else none
  | some other => if other.isNull then some [] else none
  | none => none

/-- Whether a key names the part with a number below ten: by the number or by its digit. -/
def names (number : UInt8) : Item → Bool
  | unsigned value => value = number.toUInt64
  | text chunks => chunks.flatten = [0x30 + number]
  | _ => false

/-- The value of the first entry whose key names a part; null if there is none. -/
def entry (number : UInt8) (entries : List (Item × Item)) : Item :=
  match entries.find? fun entry => entry.1.names number with
  | some (_, value) => value
  | none => simple 22

/-- A count: a non-negative integer of 64 bits; null stands for zero. -/
def count? (item : Item) : Option UInt64 :=
  match item.untagged? with
  | some (unsigned value) => some value
  | some (tag number (bytes content)) =>
    if number = 2 && bigEndian content < UInt64.size then
      some (UInt64.ofNat (bigEndian content))
    else none
  | some (simple value) =>
    if value = 22 || value = 23 then some 0
    else if value = 20 || value = 21 then none
    else some value
  | _ => none

/-- A byte: a count below 256. -/
def octet? (item : Item) : Option UInt8 :=
  item.count?.bind fun value => if value < 256 then some value.toUInt8 else none

/-- An identifier: a byte string of sixteen bytes, or an array of bytes, of which the first
sixteen are read and missing ones are zero; null stands for zeros. -/
def uuid? (item : Item) : Option Uuid :=
  match item.untagged? with
  | some (bytes content) | some (tag _ (bytes content)) => Uuid.ofBytes? content
  | some (array items) => ((items.take 16).mapM octet?).map Uuid.ofPrefix
  | some other => if other.isNull then some .zero else none
  | none => none

/-- The elements of an array; null has none. -/
def elements? (item : Item) : Option (List Item) :=
  match item.untagged? with
  | some (array items) => some items
  | some other => if other.isNull then some [] else none
  | none => none

end Cbor.Item

/-- Reads the header of a log. -/
def LogHeader.ofItem? (item : Cbor.Item) : Option LogHeader := do
  let entries ← item.entries?
  let id ← (Cbor.Item.entry 1 entries).uuid?
  let events ← (Cbor.Item.entry 2 entries).count?
  return ⟨id, events⟩

/-- Reads a header from an item. -/
def DumpHeader.ofItem? (item : Cbor.Item) : Option DumpHeader := do
  let entries ← item.entries?
  let session ← (Cbor.Item.entry 1 entries).uuid?
  let logs ← (← (Cbor.Item.entry 2 entries).elements?).mapM LogHeader.ofItem?
  return ⟨session, logs⟩

/-- **Reads a header.** -/
def DumpHeader.read? (bytes : List UInt8) : Option DumpHeader :=
  (Cbor.read? bytes).bind DumpHeader.ofItem?

end HeapAudit
