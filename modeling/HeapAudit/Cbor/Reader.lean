import HeapAudit.Cbor.Item

/-!
# Reading CBOR

The reader accepts well-formed items: every length and count must be covered by
the input, strings of indefinite length consist of definite chunks of their own
type, and maps have a value for every key.  Items nest at most 32 levels deep, and
no collection has more than 131072 elements or entries.

The reading functions take an amount of fuel, one unit for each item, and never
need more than the number of bytes they are given.
-/

namespace HeapAudit.Cbor

set_option autoImplicit false

/-- How deep items may nest. -/
def maxDepth : Nat := 32

/-- How many elements or entries a collection may have. -/
def maxElements : Nat := 131072

/-- The number with the given bytes, the most significant first. -/
def bigEndian (bytes : List UInt8) : Nat := bytes.foldl (fun value byte => value * 256 + byte.toNat) 0

/-- Splits off a number of bytes, if there are that many. -/
def splitBytes (count : Nat) (input : List UInt8) : Option (List UInt8 × List UInt8) :=
  let start := input.take count
  if start.length = count then some (start, input.drop count) else none

/-- The argument of an item whose initial byte carries the given information. -/
def readArgument (info : Nat) (input : List UInt8) : Option (UInt64 × List UInt8) :=
  let wide (count : Nat) := (splitBytes count input).map fun (bytes, rest) =>
    (UInt64.ofNat (bigEndian bytes), rest)
  if info < 24 then some (UInt64.ofNat info, input)
  else if info = 24 then wide 1
  else if info = 25 then wide 2
  else if info = 26 then wide 4
  else if info = 27 then wide 8
  else none

/-- The type of an initial byte. -/
def majorOf (initial : UInt8) : Nat := initial.toNat / 32

/-- The additional information of an initial byte. -/
def infoOf (initial : UInt8) : Nat := initial.toNat % 32

/-- The byte that ends items of indefinite length. -/
def breakByte : UInt8 := 0xff

/-- The chunks of a string of indefinite length. -/
def readChunks (major : Nat) : Nat → List UInt8 → Option (List (List UInt8) × List UInt8)
  | 0, _ => none
  | _ + 1, [] => none
  | fuel + 1, initial :: rest =>
    if initial = breakByte then some ([], rest)
    else if majorOf initial = major then do
      let (length, rest) ← readArgument (infoOf initial) rest
      let (chunk, rest) ← splitBytes length.toNat rest
      let (chunks, rest) ← readChunks major fuel rest
      return (chunk :: chunks, rest)
    else none

/-- Joins alternating keys and values. -/
def entriesOf : List Item → Option (List (Item × Item))
  | [] => some []
  | [_] => none
  | key :: value :: rest => (entriesOf rest).map ((key, value) :: ·)

/-- A collection of a type and its items. -/
def collect (major : Nat) (items : List Item) : Option Item :=
  if major = 4 then
    if items.length ≤ maxElements then some (.array items) else none
  else (entriesOf items).bind fun entries =>
    if entries.length ≤ maxElements then some (.map entries) else none

/-- An item of a type that has no content beside its argument. -/
def scalar (major info : Nat) (argument : UInt64) : Option Item :=
  if major = 0 then some (.unsigned argument)
  else if major = 1 then some (.negative argument)
  else if info = 24 && argument < 32 then none
  else if info ≤ 24 then some (.simple argument)
  else some (.float argument)

/-- Whether an input starts with a tag. -/
def startsWithTag : List UInt8 → Bool
  | [] => false
  | initial :: _ => majorOf initial = 6

mutual

/-- The item at the start of an input, inside a number of collections, and the rest. -/
def readItem : Nat → Nat → List UInt8 → Option (Item × List UInt8)
  | 0, _, _ => none
  | _ + 1, _, [] => none
  | fuel + 1, depth, initial :: rest =>
    let major := majorOf initial
    let info := infoOf initial
    if major = 4 || major = 5 then
      if maxDepth ≤ depth then none
      else if info = 31 then do
        let (items, rest) ← readUntilBreak fuel (depth + 1) rest
        return (← collect major items, rest)
      else do
        let (count, rest) ← readArgument info rest
        if maxElements < count.toNat then none
        let (items, rest) ← readItems fuel (depth + 1)
          (if major = 4 then count.toNat else 2 * count.toNat) rest
        return (← collect major items, rest)
    else if major = 6 then do
      let (number, rest) ← readArgument info rest
      let depth := if startsWithTag rest then depth + 1 else depth
      if maxDepth < depth then none
      let (content, rest) ← readItem fuel depth rest
      return (.tag number content, rest)
    else if major = 2 || major = 3 then do
      let (chunks, rest) ←
        if info = 31 then readChunks major fuel rest
        else do
          let (length, rest) ← readArgument info rest
          let (content, rest) ← splitBytes length.toNat rest
          pure ([content], rest)
      return (if major = 2 then .bytes chunks.flatten else .text chunks, rest)
    else do
      let (argument, rest) ← readArgument info rest
      return (← scalar major info argument, rest)

/-- A number of items, and the rest. -/
def readItems : Nat → Nat → Nat → List UInt8 → Option (List Item × List UInt8)
  | _, _, 0, input => some ([], input)
  | 0, _, _ + 1, _ => none
  | fuel + 1, depth, count + 1, input => do
    let (item, rest) ← readItem fuel depth input
    let (items, rest) ← readItems fuel depth count rest
    return (item :: items, rest)

/-- The items up to a break, and the rest behind it. -/
def readUntilBreak : Nat → Nat → List UInt8 → Option (List Item × List UInt8)
  | 0, _, _ => none
  | _ + 1, _, [] => none
  | fuel + 1, depth, initial :: rest =>
    if initial = breakByte then some ([], rest)
    else do
      let (item, rest) ← readItem fuel depth (initial :: rest)
      let (items, rest) ← readUntilBreak fuel depth rest
      return (item :: items, rest)

end

/-- **The item that an input consists of.** -/
def read? (input : List UInt8) : Option Item :=
  match readItem (2 * input.length + 2) 0 input with
  | some (item, []) => some item
  | _ => none

end HeapAudit.Cbor
