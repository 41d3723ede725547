/-!
# Writing CBOR

Items are written with the shortest head that holds their argument.
-/

namespace HeapAudit.Cbor

set_option autoImplicit false

/-- The given number of low bytes of a word, the most significant first. -/
def argumentBytes (word : UInt64) : Nat → List UInt8
  | 0 => []
  | count + 1 => (word >>> (8 * count).toUInt64).toUInt8 :: argumentBytes word count

/-- The head of an item of a type with an argument. -/
def head (major : UInt8) (argument : UInt64) : List UInt8 :=
  let start := major <<< 5
  if argument < 24 then [start ||| argument.toUInt8]
  else if argument < 0x100 then (start ||| 24) :: argumentBytes argument 1
  else if argument < 0x10000 then (start ||| 25) :: argumentBytes argument 2
  else if argument < 0x100000000 then (start ||| 26) :: argumentBytes argument 4
  else (start ||| 27) :: argumentBytes argument 8

/-- A non-negative integer. -/
def writeUnsigned (value : UInt64) : List UInt8 := head 0 value

/-- A byte string. -/
def writeBytes (content : List UInt8) : List UInt8 := head 2 content.length.toUInt64 ++ content

/-- The start of an array. -/
def writeArray (count : Nat) : List UInt8 := head 4 count.toUInt64

/-- The start of a map. -/
def writeMap (count : Nat) : List UInt8 := head 5 count.toUInt64

end HeapAudit.Cbor
