/-!
# The BLAKE3 hash of a byte string

A message is cut into chunks of 1024 bytes and a chunk into blocks of 64 bytes.
Chunks are compressed one by one to chaining values, which are then joined in
pairs, layer after layer, until one pair is left; the compression of that last
pair, or of the last block of a lone chunk, carries the root flag and yields the
256-bit digest.  A value without a partner moves up to the next layer, so the
left subtree of every node is the largest complete one.
-/

namespace HeapAudit.Blake3

set_option autoImplicit false

/-! ## The compression function -/

/-- Four words that are mixed side by side. -/
structure Lanes where
  w0 : UInt32
  w1 : UInt32
  w2 : UInt32
  w3 : UInt32

namespace Lanes

/-- Combines two rows lane by lane. -/
def zip (combine : UInt32 → UInt32 → UInt32) (left right : Lanes) : Lanes :=
  ⟨combine left.w0 right.w0, combine left.w1 right.w1, combine left.w2 right.w2,
    combine left.w3 right.w3⟩

/-- Exclusive or of two rows, each lane then rotated to the right. -/
def xorRotate (count : UInt32) (left right : Lanes) : Lanes :=
  zip (fun x y => let z := x ^^^ y; (z >>> count) ||| (z <<< (32 - count))) left right

/-- Moves every lane one place to the left. -/
def turn (row : Lanes) : Lanes := ⟨row.w1, row.w2, row.w3, row.w0⟩

/-- Adds two rows lane by lane. -/
def add (left right : Lanes) : Lanes := zip (· + ·) left right

/-- The words of a row. -/
def toList (row : Lanes) : List UInt32 := [row.w0, row.w1, row.w2, row.w3]

end Lanes

/-- The sixteen words of the compression state, by rows. -/
structure State where
  a : Lanes
  b : Lanes
  c : Lanes
  d : Lanes

namespace State

/-- Mixes the four columns, each with two message words. -/
def mix (state : State) (x y : Lanes) : State :=
  let a := (state.a.add state.b).add x
  let d := Lanes.xorRotate 16 state.d a
  let c := state.c.add d
  let b := Lanes.xorRotate 12 state.b c
  let a := (a.add b).add y
  let d := Lanes.xorRotate 8 d a
  let c := c.add d
  let b := Lanes.xorRotate 7 b c
  ⟨a, b, c, d⟩

/-- Turns the rows so that diagonals become columns. -/
def slant (state : State) : State :=
  ⟨state.a, state.b.turn, state.c.turn.turn, state.d.turn.turn.turn⟩

/-- Undoes `slant`. -/
def straighten (state : State) : State :=
  ⟨state.a, state.b.turn.turn.turn, state.c.turn.turn, state.d.turn⟩

/-- One round: the columns take the first eight message words, the diagonals the others. -/
def round (state : State) : List UInt32 → State
  | [m0, m1, m2, m3, m4, m5, m6, m7, m8, m9, m10, m11, m12, m13, m14, m15] =>
    let columns := state.mix ⟨m0, m2, m4, m6⟩ ⟨m1, m3, m5, m7⟩
    (columns.slant.mix ⟨m8, m10, m12, m14⟩ ⟨m9, m11, m13, m15⟩).straighten
  | _ => state

end State

/-- The order in which a round passes its message words on to the next. -/
def permute : List UInt32 → List UInt32
  | [m0, m1, m2, m3, m4, m5, m6, m7, m8, m9, m10, m11, m12, m13, m14, m15] =>
    [m2, m6, m3, m10, m7, m0, m4, m13, m1, m11, m12, m5, m9, m14, m15, m8]
  | words => words

/-- The given number of rounds. -/
def rounds : Nat → State → List UInt32 → State
  | 0, state, _ => state
  | count + 1, state, words => rounds count (state.round words) (permute words)

/-- Eight words that carry a digest from one compression to the next. -/
structure Chaining where
  low : Lanes
  high : Lanes

/-- The initial chaining value. -/
def Chaining.initial : Chaining where
  low := ⟨0x6A09E667, 0xBB67AE85, 0x3C6EF372, 0xA54FF53A⟩
  high := ⟨0x510E527F, 0x9B05688C, 0x1F83D9AB, 0x5BE0CD19⟩

/-- The words of a chaining value. -/
def Chaining.toWords (value : Chaining) : List UInt32 := value.low.toList ++ value.high.toList

/-- The flag of the first block of a chunk. -/
def chunkStart : UInt32 := 1

/-- The flag of the last block of a chunk. -/
def chunkEnd : UInt32 := 2

/-- The flag of a pair of subtrees. -/
def parent : UInt32 := 4

/-- The flag of the last compression. -/
def root : UInt32 := 8

/-- Compresses sixteen message words into the chaining value. -/
def compress (value : Chaining) (words : List UInt32) (counter : UInt64) (length flags : UInt32) :
    Chaining :=
  let state := rounds 7
    ⟨value.low, value.high, Chaining.initial.low,
      ⟨counter.toUInt32, (counter >>> 32).toUInt32, length, flags⟩⟩ words
  ⟨Lanes.zip (· ^^^ ·) state.a state.c, Lanes.zip (· ^^^ ·) state.b state.d⟩

/-! ## Chunks -/

/-- Words of four bytes, least significant byte first. -/
def wordsOf : List UInt8 → List UInt32
  | b0 :: b1 :: b2 :: b3 :: rest =>
    (b0.toUInt32 ||| (b1.toUInt32 <<< 8) ||| (b2.toUInt32 <<< 16) ||| (b3.toUInt32 <<< 24))
      :: wordsOf rest
  | _ => []

/-- The message words of a block, padded with zeros. -/
def blockWords (block : List UInt8) : List UInt32 :=
  wordsOf (block ++ List.replicate (64 - block.length) 0)

/-- Cuts a list into pieces of a size; the last piece may be shorter.  The first argument
bounds the number of pieces. -/
def pieces {α : Type} (size : Nat) : Nat → List α → List (List α)
  | 0, _ => []
  | fuel + 1, items =>
    if items.isEmpty then [] else items.take size :: pieces size fuel (items.drop size)

/-- The pieces of a message, of which an empty message has one. -/
def cut (size : Nat) (message : List UInt8) : List (List UInt8) :=
  if message.isEmpty then [[]] else pieces size (message.length / size + 1) message

/-- Compresses the blocks of a chunk in turn; the last one carries the extra flags. -/
def compressBlocks (counter : UInt64) (last : UInt32) :
    Chaining → UInt32 → List (List UInt8) → Chaining
  | value, _, [] => value
  | value, first, [block] =>
    compress value (blockWords block) counter block.length.toUInt32 (first ||| chunkEnd ||| last)
  | value, first, block :: rest =>
    compressBlocks counter last
      (compress value (blockWords block) counter block.length.toUInt32 first) 0 rest

/-- The chaining value of the chunk with a number. -/
def chunkValue (last : UInt32) (counter : UInt64) (chunk : List UInt8) : Chaining :=
  compressBlocks counter last .initial chunkStart (cut 64 chunk)

/-! ## The tree -/

/-- Joins two subtrees. -/
def join (flags : UInt32) (left right : Chaining) : Chaining :=
  compress .initial (left.toWords ++ right.toWords) 0 64 (parent ||| flags)

/-- Joins neighbours; a value without a partner moves up. -/
def joinLayer : List Chaining → List Chaining
  | left :: right :: rest => join 0 left right :: joinLayer rest
  | rest => rest

/-- Joins layer after layer down to the last pair, which is the root.  The first argument bounds
the number of layers. -/
def joinAll : Nat → List Chaining → Chaining
  | _, [left, right] => join root left right
  | fuel + 1, values => joinAll fuel (joinLayer values)
  | 0, _ => .initial

/-- Numbers the chunks and compresses each. -/
def chunkValues (counter : UInt64) : List (List UInt8) → List Chaining
  | [] => []
  | chunk :: rest => chunkValue 0 counter chunk :: chunkValues (counter + 1) rest

/-- The four bytes of a word, least significant first. -/
def wordBytes (word : UInt32) : List UInt8 :=
  [word.toUInt8, (word >>> 8).toUInt8, (word >>> 16).toUInt8, (word >>> 24).toUInt8]

/-- The 256-bit digest of a message. -/
def digest (message : List UInt8) : List UInt8 :=
  let value := match cut 1024 message with
    | [chunk] => chunkValue root 0 chunk
    | chunks => joinAll chunks.length (chunkValues 0 chunks)
  value.toWords.flatMap wordBytes

end HeapAudit.Blake3
