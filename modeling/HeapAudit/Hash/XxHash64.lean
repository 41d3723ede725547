/-!
# The XXH64 hash of a sequence of words

The fingerprint of an object graph hashes whole 64-bit words only, so the hash is
given on lists of words; a word stands for its eight bytes, least significant
first.  Messages of four words and more run through four accumulators, one per
column of a stripe; the words left over are folded in one by one, and a final
avalanche mixes the result.
-/

namespace HeapAudit.XxHash64

set_option autoImplicit false

/-- The first of the five odd multipliers. -/
def prime1 : UInt64 := 0x9E3779B185EBCA87

/-- The second multiplier. -/
def prime2 : UInt64 := 0xC2B2AE3D27D4EB4F

/-- The third multiplier. -/
def prime3 : UInt64 := 0x165667B19E3779F9

/-- The fourth multiplier. -/
def prime4 : UInt64 := 0x85EBCA77C2B2AE63

/-- The fifth multiplier. -/
def prime5 : UInt64 := 0x27D4EB2F165667C5

/-- Rotation of a word to the left. -/
def rotate (word : UInt64) (count : UInt64) : UInt64 :=
  (word <<< count) ||| (word >>> (64 - count))

/-- One accumulator absorbs one word. -/
def absorb (accumulator word : UInt64) : UInt64 :=
  rotate (accumulator + word * prime2) 31 * prime1

/-- The accumulators, one per column of a stripe of four words. -/
structure Accumulators where
  first : UInt64
  second : UInt64
  third : UInt64
  fourth : UInt64

/-- The accumulators before the first stripe, for a seed. -/
def Accumulators.start (seed : UInt64) : Accumulators where
  first := seed + prime1 + prime2
  second := seed + prime2
  third := seed
  fourth := seed - prime1

/-- Every column absorbs its word. -/
def Accumulators.absorbStripe (state : Accumulators) (w1 w2 w3 w4 : UInt64) : Accumulators where
  first := absorb state.first w1
  second := absorb state.second w2
  third := absorb state.third w3
  fourth := absorb state.fourth w4

/-- Folds one accumulator into the joint value. -/
def merge (joint accumulator : UInt64) : UInt64 :=
  (joint ^^^ absorb 0 accumulator) * prime1 + prime4

/-- The joint value of all four accumulators. -/
def Accumulators.converge (state : Accumulators) : UInt64 :=
  let joint := rotate state.first 1 + rotate state.second 7
    + rotate state.third 12 + rotate state.fourth 18
  merge (merge (merge (merge joint state.first) state.second) state.third) state.fourth

/-- Runs through the whole stripes of a message; also returns the words left over. -/
def consume (state : Accumulators) : List UInt64 → Accumulators × List UInt64
  | w1 :: w2 :: w3 :: w4 :: rest => consume (state.absorbStripe w1 w2 w3 w4) rest
  | rest => (state, rest)

/-- Folds a left-over word in. -/
def finishWord (joint word : UInt64) : UInt64 :=
  rotate (joint ^^^ absorb 0 word) 27 * prime1 + prime4

/-- The final mixing. -/
def avalanche (joint : UInt64) : UInt64 :=
  let once := (joint ^^^ (joint >>> 33)) * prime2
  let twice := (once ^^^ (once >>> 29)) * prime3
  twice ^^^ (twice >>> 32)

/-- The hash of a message under a seed. -/
def hash (seed : UInt64) (words : List UInt64) : UInt64 :=
  let (state, rest) := consume (.start seed) words
  let joint := if words.length < 4 then seed + prime5 else state.converge
  avalanche (rest.foldl finishWord (joint + 8 * words.length.toUInt64))

end HeapAudit.XxHash64
