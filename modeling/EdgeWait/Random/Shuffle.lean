/-
Shuffling by random swaps.

For each place from the last down to the second a partner is picked among the places up to and
including it, and the two are swapped (`swapDown`). The picks come as a list, so a shuffle is the
same function whether they are drawn from a seed (`seededPicks`) or given otherwise.
-/
import EdgeWait.Random.Keystream

namespace EdgeWait

/-- Draws words until the low half of their product with `range` is at most `zone`; the high half is
then evenly distributed below `range`. -/
def drawUpTo (range zone : UInt32) : Nat → Keystream → UInt32 × Keystream
  | 0, k => (0, k)
  | n + 1, k =>
    let (word, k) := k.next
    let product := word.toUInt64 * range.toUInt64
    if product.toUInt32 ≤ zone then ((product >>> 32).toUInt32, k) else drawUpTo range zone n k

/-- A number below `range`, evenly distributed. The zone is the largest multiple of a power of two
times `range` that fits a word, less one. The stream repeats after 2^64 blocks of sixteen words, so
a draw that has not succeeded by then never does. -/
def drawBelow (range : UInt32) (k : Keystream) : UInt32 × Keystream :=
  drawUpTo range ((range <<< (31 - range.log2)) - 1) (16 * UInt64.size) k

/-- Picks for the places `i`, `i - 1`, …, `1`: each is at most its place. -/
def picksFrom : Nat → Keystream → List Nat
  | 0, _ => []
  | i + 1, k =>
    let (j, k) := drawBelow (UInt32.ofNat (i + 2)) k
    j.toNat :: picksFrom i k

/-- The picks of a seed for a shuffle of `n` things. -/
def seededPicks (seed : UInt64) (n : Nat) : List Nat :=
  picksFrom (n - 1) (Keystream.ofSeed seed)

/-- Swaps place `i` with the first pick, place `i - 1` with the second, and so on down to place one
or to the end of the picks. A pick outside the array swaps nothing. -/
def swapDown {α : Type} (xs : Array α) : Nat → List Nat → Array α
  | i + 1, j :: picks => swapDown (xs.swapIfInBounds (i + 1) j) i picks
  | _, _ => xs

/-- Shuffles an array by a list of picks. -/
def shuffle {α : Type} (picks : List Nat) (xs : Array α) : Array α :=
  swapDown xs (xs.size - 1) picks

end EdgeWait
