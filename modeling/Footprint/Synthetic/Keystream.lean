/-!
# Keystreams

A seed fixes an endless stream of 32-bit words. A congruential sequence expands
the seed to a key of eight words, and the ChaCha block function with twelve
rounds turns the key and a block number into sixteen words at a time.
-/

namespace Footprint.Synthetic

/-- A word with its bits moved around to the left. -/
def rotateLeft (w n : UInt32) : UInt32 :=
  (w <<< n) ||| (w >>> (32 - n))

/-- A word with its bits moved around to the right. -/
def rotateRight (w n : UInt32) : UInt32 :=
  (w >>> n) ||| (w <<< (32 - n))

/-- The sixteen words on which the rounds work. -/
abbrev Block := Vector UInt32 16

namespace Block

/-- Mix four words of a block. -/
def quarterRound (s : Block) (a b c d : Fin 16) : Block :=
  let s := s.set a (s[a] + s[b])
  let s := s.set d (rotateLeft (s[d] ^^^ s[a]) 16)
  let s := s.set c (s[c] + s[d])
  let s := s.set b (rotateLeft (s[b] ^^^ s[c]) 12)
  let s := s.set a (s[a] + s[b])
  let s := s.set d (rotateLeft (s[d] ^^^ s[a]) 8)
  let s := s.set c (s[c] + s[d])
  s.set b (rotateLeft (s[b] ^^^ s[c]) 7)

/-- Mix the columns of a block and then its diagonals. -/
def doubleRound (s : Block) : Block :=
  let s := s.quarterRound 0 4 8 12
  let s := s.quarterRound 1 5 9 13
  let s := s.quarterRound 2 6 10 14
  let s := s.quarterRound 3 7 11 15
  let s := s.quarterRound 0 5 10 15
  let s := s.quarterRound 1 6 11 12
  let s := s.quarterRound 2 7 8 13
  s.quarterRound 3 4 9 14

/-- The block before any round: four constants, the key, the block number and two zeros. -/
def initial (key : Vector UInt32 8) (number : UInt64) : Block :=
  #v[0x61707865, 0x3320646e, 0x79622d32, 0x6b206574,
    key[0], key[1], key[2], key[3], key[4], key[5], key[6], key[7],
    number.toUInt32, (number >>> 32).toUInt32, 0, 0]

/-- The block of the given number: six double rounds added to the initial block. -/
def ofKey (key : Vector UInt32 8) (number : UInt64) : Block :=
  let first := initial key number
  Vector.zipWith (· + ·) first (Nat.repeat doubleRound 6 first)

end Block

/-- The next state of the sequence that expands a seed. -/
def expandStep (state : UInt64) : UInt64 :=
  state * 6364136223846793005 + 11634580027462260723

/-- The key word that a state of the sequence gives. -/
def expandWord (state : UInt64) : UInt32 :=
  rotateRight (((state >>> 18) ^^^ state) >>> 27).toUInt32 (state >>> 59).toUInt32

/-- The key of a seed. -/
def keyOfSeed (seed : UInt64) : Vector UInt32 8 :=
  Vector.ofFn fun i => expandWord (Nat.repeat expandStep (i.val + 1) seed)

/-- A position in the stream of a key. -/
structure Keystream where
  /-- The key. -/
  key : Vector UInt32 8
  /-- The block at the position. -/
  block : Block
  /-- The words of the block that have been given. -/
  given : Nat
  /-- The number of the block after it. -/
  nextNumber : UInt64

namespace Keystream

/-- The beginning of the stream of a seed. -/
def ofSeed (seed : UInt64) : Keystream :=
  let key := keyOfSeed seed
  { key, block := .ofKey key 0, given := 0, nextNumber := 1 }

/-- The next word of the stream. -/
def next (k : Keystream) : UInt32 × Keystream :=
  if h : k.given < 16 then (k.block[k.given], { k with given := k.given + 1 })
  else
    let block := Block.ofKey k.key k.nextNumber
    (block[0], { k with block, given := 1, nextNumber := k.nextNumber + 1 })

/-- The next two words of the stream as one, the low half first. -/
def next64 (k : Keystream) : UInt64 × Keystream :=
  let (low, k) := k.next
  let (high, k) := k.next
  (low.toUInt64 ||| (high.toUInt64 <<< 32), k)

end Keystream

end Footprint.Synthetic
