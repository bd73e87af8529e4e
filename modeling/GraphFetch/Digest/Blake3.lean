/-
The BLAKE3 hash.

The input is cut into chunks of 1024 bytes and a chunk into blocks of 64.  Blocks of
one chunk are compressed one after the other; chunks are the leaves of a binary tree
whose left subtrees are complete and as large as they can be.  A node of either kind
is kept uncompressed until it is known whether it is the root, because that goes
into its compression.
-/

namespace GraphFetch

namespace Blake3

/-- A chaining value, and half of the state of a compression. -/
abbrev Words := Vector UInt32 8

/-- A block of a message, and the state of a compression. -/
abbrev Block := Vector UInt32 16

/-- The first 32 bits of the fractional parts of the square roots of the first eight primes. -/
def start : Words :=
  #v[0x6A09E667, 0xBB67AE85, 0x3C6EF372, 0xA54FF53A, 0x510E527F, 0x9B05688C, 0x1F83D9AB,
    0x5BE0CD19]

/-! ### Compression -/

def rotateRight (word count : UInt32) : UInt32 := word >>> count ||| word <<< (32 - count)

/-- Half of a mixing: four words and one word of the message, rotated by two amounts. -/
def stir (state : Block) (a b c d : Fin 16) (word first second : UInt32) : Block :=
  let wa := state[a] + state[b] + word
  let wd := rotateRight (state[d] ^^^ wa) first
  let wc := state[c] + wd
  let wb := rotateRight (state[b] ^^^ wc) second
  (((state.set a wa).set b wb).set c wc).set d wd

/-- Mixes four words of the state with two words of the message. -/
def mix (state : Block) (a b c d : Fin 16) (x y : UInt32) : Block :=
  stir (stir state a b c d x 16 12) a b c d y 8 7

/-- One round: the columns, then the diagonals. -/
def round (message state : Block) : Block :=
  let state := mix state 0 4 8 12 message[0] message[1]
  let state := mix state 1 5 9 13 message[2] message[3]
  let state := mix state 2 6 10 14 message[4] message[5]
  let state := mix state 3 7 11 15 message[6] message[7]
  let state := mix state 0 5 10 15 message[8] message[9]
  let state := mix state 1 6 11 12 message[10] message[11]
  let state := mix state 2 7 8 13 message[12] message[13]
  mix state 3 4 9 14 message[14] message[15]

/-- The message in the order of the next round. -/
def permute (m : Block) : Block :=
  #v[m[2], m[6], m[3], m[10], m[7], m[0], m[4], m[13], m[1], m[11], m[12], m[5], m[9], m[14],
    m[15], m[8]]

/-- So many rounds. -/
def rounds : Nat → Block → Block → Block
  | 0, _, state => state
  | count + 1, message, state => rounds count (permute message) (round message state)

/-- What a block is marked as. -/
structure Marks where
  chunkStart : Bool := false
  chunkEnd : Bool := false
  parent : Bool := false
  root : Bool := false

def Marks.word (marks : Marks) : UInt32 :=
  (if marks.chunkStart then 1 else 0) ||| (if marks.chunkEnd then 2 else 0)
    ||| (if marks.parent then 4 else 0) ||| (if marks.root then 8 else 0)

/-- The chaining value after a block. -/
def compress (chaining : Words) (message : Block) (counter length : Nat) (marks : Marks) : Words :=
  let v := chaining
  let state : Block :=
    #v[v[0], v[1], v[2], v[3], v[4], v[5], v[6], v[7], start[0], start[1], start[2], start[3],
      counter.toUInt32, (counter / Nat.pow 2 32).toUInt32, length.toUInt32, marks.word]
  let s := rounds 7 message state
  #v[s[0] ^^^ s[8], s[1] ^^^ s[9], s[2] ^^^ s[10], s[3] ^^^ s[11], s[4] ^^^ s[12],
    s[5] ^^^ s[13], s[6] ^^^ s[14], s[7] ^^^ s[15]]

/-! ### The tree -/

/-- A node of the tree before its last compression. -/
structure Node where
  chaining : Words
  message : Block
  counter : Nat
  length : Nat
  marks : Marks

/-- The value of a node below others. -/
def Node.value (node : Node) : Words :=
  compress node.chaining node.message node.counter node.length node.marks

/-- The value of the root. -/
def Node.rootValue (node : Node) : Words :=
  compress node.chaining node.message 0 node.length { node.marks with root := true }

/-- Four bytes as a word, the lowest first; missing ones are zero. -/
def word (bytes : List UInt8) (i : Nat) : UInt32 :=
  let byte (j : Nat) : UInt32 := (bytes.getD (4 * i + j) 0).toUInt32
  byte 0 ||| byte 1 <<< 8 ||| byte 2 <<< 16 ||| byte 3 <<< 24

/-- The words of a block. -/
def blockOf (bytes : List UInt8) : Block := Vector.ofFn fun i => word bytes i

/-- The node of a chunk, from one of its blocks on. -/
def chunkFrom (counter : Nat) (chaining : Words) (first : Bool) (bytes : List UInt8) : Node :=
  if 64 < bytes.length then
    let next := compress chaining (blockOf (bytes.take 64)) counter 64 { chunkStart := first }
    chunkFrom counter next false (bytes.drop 64)
  else
    ⟨chaining, blockOf bytes, counter, bytes.length, { chunkStart := first, chunkEnd := true }⟩
termination_by bytes.length
decreasing_by simp only [List.length_drop]; omega

/-- The node above two others. -/
def parentOf (left right : Words) : Node := ⟨start, left ++ right, 0, 64, { parent := true }⟩

/-- How many bytes go to the left: the largest power of two that leaves some. -/
def leftLength (length : Nat) : Nat := Nat.pow 2 (length - 1).log2

theorem leftLength_pos (length : Nat) : 0 < leftLength length := Nat.two_pow_pos _

theorem leftLength_lt {length : Nat} (h : 1024 < length) : leftLength length < length := by
  have : leftLength length ≤ length - 1 := Nat.log2_self_le (by omega)
  omega

/-- The node of bytes that start at a chunk. -/
def tree (counter : Nat) (bytes : List UInt8) : Node :=
  if h : 1024 < bytes.length then
    let split := leftLength bytes.length
    parentOf (tree counter (bytes.take split)).value
      (tree (counter + split / 1024) (bytes.drop split)).value
  else chunkFrom counter start true bytes
termination_by bytes.length
decreasing_by
  · have := leftLength_lt h
    simp only [List.length_take]
    omega
  · have := leftLength_pos bytes.length
    simp only [List.length_drop]
    omega

/-! ### The hash -/

/-- The four bytes of a word, the lowest first. -/
def bytesOf (word : UInt32) : List UInt8 :=
  [word.toUInt8, (word >>> 8).toUInt8, (word >>> 16).toUInt8, (word >>> 24).toUInt8]

/-- The hash of some bytes. -/
def hash (bytes : List UInt8) : List UInt8 := (tree 0 bytes).rootValue.toList.flatMap bytesOf

/-- Two hexadecimal digits. -/
def hexByte (byte : UInt8) : List Char :=
  [Nat.digitChar (byte.toNat / 16), Nat.digitChar (byte.toNat % 16)]

/-- The hash of a text's encoding, in hexadecimal. -/
def hexHash (text : String) : String :=
  String.ofList ((hash text.toUTF8.data.toList).flatMap hexByte)

end Blake3

end GraphFetch
