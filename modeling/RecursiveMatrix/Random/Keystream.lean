/-!
# The ChaCha8 keystream

A 64-bit seed expands to a key of eight words, and a key together with a 64-bit stream number
determines an endless sequence of words. The sequence comes in blocks of sixteen: word `j` is word
`j % 16` of block `j / 16`, and blocks are numbered modulo `2^64` (`keystreamWord`).

`Keystream` reads that sequence in order. It keeps the block it is reading and computes the next
one when it has read the last word.
-/

namespace RecursiveMatrix

/-- Eight words of key. -/
abbrev ChaChaKey := Vector UInt32 8

/-- Sixteen words: the state of the cipher, and a stretch of its output. -/
abbrev ChaChaBlock := Vector UInt32 16

/-! ## From a seed to a key -/

/-- One step of the linear congruential generator that expands a seed. -/
def seedStep (state : UInt64) : UInt64 := state * 6364136223846793005 + 11634580027462260723

/-- The word that a state of that generator gives: its high bits, rotated by the highest ones. -/
def seedWord (state : UInt64) : UInt32 :=
  let x := (((state >>> 18) ^^^ state) >>> 27).toUInt32
  let r := (state >>> 59).toUInt32
  (x >>> r) ||| (x <<< (32 - r))

def ChaChaKey.ofSeed (seed : UInt64) : ChaChaKey :=
  Vector.ofFn fun i ↦ seedWord (Nat.repeat seedStep (i + 1) seed)

/-! ## From a key to blocks -/

def rotateLeft (x k : UInt32) : UInt32 := (x <<< k) ||| (x >>> (32 - k))

/-- Mixes four words of a block. -/
def quarterRound (a b c d : Fin 16) (s : ChaChaBlock) : ChaChaBlock :=
  let s := s.set a (s[a] + s[b])
  let s := s.set d (rotateLeft (s[d] ^^^ s[a]) 16)
  let s := s.set c (s[c] + s[d])
  let s := s.set b (rotateLeft (s[b] ^^^ s[c]) 12)
  let s := s.set a (s[a] + s[b])
  let s := s.set d (rotateLeft (s[d] ^^^ s[a]) 8)
  let s := s.set c (s[c] + s[d])
  s.set b (rotateLeft (s[b] ^^^ s[c]) 7)

/-- Mixes the four columns of a block, then its four diagonals. -/
def doubleRound (s : ChaChaBlock) : ChaChaBlock :=
  let s := quarterRound 0 4 8 12 s
  let s := quarterRound 1 5 9 13 s
  let s := quarterRound 2 6 10 14 s
  let s := quarterRound 3 7 11 15 s
  let s := quarterRound 0 5 10 15 s
  let s := quarterRound 1 6 11 12 s
  let s := quarterRound 2 7 8 13 s
  quarterRound 3 4 9 14 s

/-- What a block is computed from: four constants, the key, the number of the block and the number
of the stream, low words first. -/
def initialBlock (key : ChaChaKey) (stream counter : UInt64) : ChaChaBlock :=
  #v[0x61707865, 0x3320646E, 0x79622D32, 0x6B206574,
    key[0], key[1], key[2], key[3], key[4], key[5], key[6], key[7],
    counter.toUInt32, (counter >>> 32).toUInt32, stream.toUInt32, (stream >>> 32).toUInt32]

/-- Block number `counter` of a stream: eight rounds, and the start added to their outcome. -/
def keystreamBlock (key : ChaChaKey) (stream counter : UInt64) : ChaChaBlock :=
  let start := initialBlock key stream counter
  Vector.zipWith (· + ·) (Nat.repeat doubleRound 4 start) start

/-- Word `j` of a stream. -/
def keystreamWord (key : ChaChaKey) (stream : UInt64) (j : Nat) : UInt32 :=
  (keystreamBlock key stream (UInt64.ofNat (j / 16)))[j % 16]

/-! ## Reading a stream in order -/

/-- A stream being read. -/
structure Keystream where
  /-- The key. -/
  key : ChaChaKey
  /-- The number of the stream. -/
  stream : UInt64
  /-- The number of the block after the one at hand. -/
  counter : UInt64
  /-- The block at hand. -/
  block : ChaChaBlock
  /-- How many words of it have been read. -/
  used : Nat

namespace Keystream

/-- The beginning of stream zero of a seed. No block is at hand yet, so all words of it count as
read. -/
def start (seed : UInt64) : Keystream :=
  ⟨ChaChaKey.ofSeed seed, 0, 0, Vector.replicate 16 0, 16⟩

/-- Goes over to another stream of the key, at the position that has been reached. A block of which
words are left is computed anew. -/
def switch (k : Keystream) (stream : UInt64) : Keystream :=
  if k.used < 16 then
    { k with stream, block := keystreamBlock k.key stream (k.counter - 1) }
  else { k with stream }

def next (k : Keystream) : UInt32 × Keystream :=
  if h : k.used < 16 then (k.block[k.used], { k with used := k.used + 1 })
  else
    let block := keystreamBlock k.key k.stream k.counter
    (block[0], { k with counter := k.counter + 1, block, used := 1 })

/-- Reads two words as one 64-bit word, the low half first. -/
def nextLong (k : Keystream) : UInt64 × Keystream :=
  let (low, k) := k.next
  let (high, k) := k.next
  (low.toUInt64 ||| (high.toUInt64 <<< 32), k)

end Keystream

end RecursiveMatrix
