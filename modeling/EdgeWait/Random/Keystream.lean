/-
The ChaCha keystream with twelve rounds, as a source of random words.

`Keystream.ofSeed` spreads a 64-bit seed over the 256-bit key by a permuted congruential generator;
`Keystream.next` reads the stream word by word. The 64-bit block counter starts at zero and the
nonce is zero.
-/

namespace EdgeWait

/-- Rotates a word to the left. -/
def rotateLeft (x n : UInt32) : UInt32 := (x <<< n) ||| (x >>> (32 - n))

/-- Rotates a word to the right. -/
def rotateRight (x n : UInt32) : UInt32 := (x >>> n) ||| (x <<< (32 - n))

/-- One step of the generator that stretches a seed over a key. -/
def seedStep (s : UInt64) : UInt64 := s * 6364136223846793005 + 11634580027462260723

/-- The key word that belongs to a state of that generator. -/
def seedWord (s : UInt64) : UInt32 :=
  rotateRight (((s >>> 18) ^^^ s) >>> 27).toUInt32 (s >>> 59).toUInt32

/-- The key for a seed. -/
def seedKey (seed : UInt64) : Vector UInt32 8 :=
  Vector.ofFn fun i => seedWord (Nat.repeat seedStep (i.val + 1) seed)

namespace ChaCha

/-- The quarter round on four of the sixteen words. -/
def quarterRound (a b c d : Fin 16) (s : Vector UInt32 16) : Vector UInt32 16 :=
  let s := s.set a (s[a] + s[b])
  let s := s.set d (rotateLeft (s[d] ^^^ s[a]) 16)
  let s := s.set c (s[c] + s[d])
  let s := s.set b (rotateLeft (s[b] ^^^ s[c]) 12)
  let s := s.set a (s[a] + s[b])
  let s := s.set d (rotateLeft (s[d] ^^^ s[a]) 8)
  let s := s.set c (s[c] + s[d])
  s.set b (rotateLeft (s[b] ^^^ s[c]) 7)

/-- A round over the columns, then a round over the diagonals. -/
def doubleRound (s : Vector UInt32 16) : Vector UInt32 16 :=
  let s := quarterRound 0 4 8 12 s
  let s := quarterRound 1 5 9 13 s
  let s := quarterRound 2 6 10 14 s
  let s := quarterRound 3 7 11 15 s
  let s := quarterRound 0 5 10 15 s
  let s := quarterRound 1 6 11 12 s
  let s := quarterRound 2 7 8 13 s
  quarterRound 3 4 9 14 s

/-- The words that a block starts from: constants, key, block counter, zero nonce. -/
def start (key : Vector UInt32 8) (counter : UInt64) : Vector UInt32 16 :=
  #v[0x61707865, 0x3320646e, 0x79622d32, 0x6b206574,
    key[0], key[1], key[2], key[3], key[4], key[5], key[6], key[7],
    counter.toUInt32, (counter >>> 32).toUInt32, 0, 0]

/-- One block of the stream: twelve rounds, then the starting words added. -/
def block (key : Vector UInt32 8) (counter : UInt64) : Vector UInt32 16 :=
  let s := start key counter
  (Nat.repeat doubleRound 6 s).zipWith (· + ·) s

end ChaCha

/-- A place in a keystream: the words left of the present block, and the number of the next one. -/
structure Keystream where
  key : Vector UInt32 8
  counter : UInt64
  buffer : List UInt32

namespace Keystream

/-- The start of the stream for a seed. -/
def ofSeed (seed : UInt64) : Keystream := ⟨seedKey seed, 0, []⟩

/-- The next word, and the place behind it. -/
def next (k : Keystream) : UInt32 × Keystream :=
  match k.buffer with
  | w :: rest => (w, { k with buffer := rest })
  | [] =>
    let b := ChaCha.block k.key k.counter
    (b[0], { k with counter := k.counter + 1, buffer := b.toList.tail })

end Keystream

end EdgeWait
