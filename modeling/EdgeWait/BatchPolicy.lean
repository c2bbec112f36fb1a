/-
Greedy partition of a list of waiting tasks into batches.

While at least `least` tasks remain, the next batch takes as many as it may, up to `most`; a shorter
rest goes one task at a time (`BatchPolicy.nextLength`). `split` cuts a list that way and `sizes`
gives the lengths alone.
-/
import EdgeWait.Fault

namespace EdgeWait

/-- Bounds on the number of tasks in a batch of more than one. -/
structure BatchPolicy where
  least : Nat
  most : Nat
  two_le_least : 2 ≤ least
  least_le_most : least ≤ most
  most_le_capacity : most ≤ batchCapacity
deriving DecidableEq

namespace BatchPolicy

/-- The policy with the given bounds; other bounds than 2 ≤ least ≤ most ≤ `batchCapacity` are a
fault. -/
def make (least most : Nat) : Except Fault BatchPolicy :=
  if h : 2 ≤ least ∧ least ≤ most ∧ most ≤ batchCapacity then
    .ok ⟨least, most, h.1, h.2.1, h.2.2⟩
  else
    .error (.arityBounds least most)

/-- The length of the next batch when `remaining` tasks are left. -/
def nextLength (p : BatchPolicy) (remaining : Nat) : Nat :=
  if p.least ≤ remaining then min remaining p.most else min remaining 1

/-- The first `n` batches of a list, or fewer when the list has no more. -/
def firstBatches {α : Type} (p : BatchPolicy) : Nat → List α → List (List α)
  | 0, _ => []
  | _ + 1, [] => []
  | n + 1, x :: xs =>
    let k := p.nextLength (x :: xs).length
    (x :: xs).take k :: p.firstBatches n ((x :: xs).drop k)

/-- All batches of a list. No batch is empty, so there are at most as many as there are elements. -/
def split {α : Type} (p : BatchPolicy) (xs : List α) : List (List α) :=
  p.firstBatches xs.length xs

/-- The lengths of the first `n` batches of a list of `remaining` tasks. -/
def firstSizes (p : BatchPolicy) : Nat → Nat → List Nat
  | 0, _ => []
  | _ + 1, 0 => []
  | n + 1, r + 1 =>
    let k := p.nextLength (r + 1)
    k :: p.firstSizes n (r + 1 - k)

/-- The lengths of all batches of a list of `n` tasks. -/
def sizes (p : BatchPolicy) (n : Nat) : List Nat :=
  p.firstSizes n n

end BatchPolicy

end EdgeWait
