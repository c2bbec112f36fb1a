/-
The greedy partition in closed form.

Three procedures are compared: the iterator that cuts one batch after the other off a list
(`cut`, `CutsInto`), the loop that counts lengths alone (`sizes`), and the search of every arity
from `most` down to `least` for the first that still fits, with one task if none does
(`searchedSizes`).

* `sizes_eq` — `q * most + r` tasks with `r < most` make `q` full batches and then one batch of
  `r`, or `r` single tasks where `r` is below `least`;
* `map_length_split` — the lengths of the batches of a list are those that the loop counts;
* `searchedSizes_eq_sizes` — so are the arities that the search finds;
* `split_closed_form` — all of this together, with an iterator that comes to its end.

Design notes: `split` and `sizes` recurse on a bound that lasts (`firstBatches`, `firstSizes`).
`split_of_ne_nil` and `sizes_of_pos` are their equations without it, and everything here follows
from these two by induction on what is left.
-/
import EdgeWait.Proofs.Batches

namespace EdgeWait

namespace BatchPolicy

variable {α : Type} (p : BatchPolicy)

@[simp] theorem nextLength_zero : p.nextLength 0 = 0 := by
  have := p.nextLength_le 0
  omega

theorem nextLength_of_most_le {n : Nat} (h : p.most ≤ n) : p.nextLength n = p.most := by
  have := p.least_le_most
  unfold nextLength
  split <;> omega

/-! ### The two recursions without their bounds -/

/-- A larger bound changes nothing once there are as many batches allowed as elements. -/
theorem firstBatches_eq_split : ∀ (n : Nat) (xs : List α), xs.length ≤ n →
    p.firstBatches n xs = p.split xs := by
  -- a batch takes at least one element, so both bounds last for the rest of the list
  have hmore : ∀ (n m : Nat) (xs : List α), xs.length ≤ n → xs.length ≤ m →
      p.firstBatches n xs = p.firstBatches m xs := by
    intro n
    induction n with
    | zero =>
      intro m xs hn _
      obtain rfl : xs = [] := List.length_eq_zero_iff.mp (by omega)
      cases m <;> rfl
    | succ n ih =>
      intro m xs hn hm
      cases xs with
      | nil => cases m <;> rfl
      | cons x xs =>
        obtain ⟨m, rfl⟩ : ∃ m', m = m' + 1 := Nat.exists_eq_succ_of_ne_zero (by
          rw [List.length_cons] at hm
          omega)
        have hpos : 0 < p.nextLength (xs.length + 1) := p.nextLength_pos (Nat.succ_pos _)
        have hrest : ((x :: xs).drop (p.nextLength (xs.length + 1))).length ≤ xs.length := by
          rw [List.length_drop, List.length_cons]
          omega
        rw [List.length_cons] at hn hm
        simp only [firstBatches, List.length_cons]
        rw [ih m _ (by omega) (by omega)]
  exact fun n xs h => hmore n _ xs h (Nat.le_refl _)

@[simp] theorem split_nil : p.split ([] : List α) = [] := rfl

/-- The batches of a list are the first one and the batches of the rest. -/
theorem split_of_ne_nil {xs : List α} (h : xs ≠ []) :
    p.split xs = xs.take (p.nextLength xs.length) ::
      p.split (xs.drop (p.nextLength xs.length)) := by
  cases xs with
  | nil => exact absurd rfl h
  | cons x xs =>
    have hpos : 0 < p.nextLength (xs.length + 1) := p.nextLength_pos (Nat.succ_pos _)
    rw [← p.firstBatches_eq_split xs.length ((x :: xs).drop _) (by
      rw [List.length_drop, List.length_cons]
      omega)]
    rfl

@[simp] theorem split_singleton (x : α) : p.split [x] = [[x]] := by
  have hone : p.nextLength 1 = 1 := by
    have := p.two_le_least
    unfold nextLength
    split <;> omega
  rw [p.split_of_ne_nil (List.cons_ne_nil x []), List.length_singleton, hone]
  rfl

/-- The lengths that are counted are those of the batches of any list as long. -/
theorem map_length_firstBatches : ∀ (n : Nat) (xs : List α),
    (p.firstBatches n xs).map List.length = p.firstSizes n xs.length := by
  intro n
  induction n with
  | zero => exact fun _ => rfl
  | succ n ih =>
    intro xs
    cases xs with
    | nil => rfl
    | cons x xs =>
      have hle := p.nextLength_le (xs.length + 1)
      simp only [firstBatches, firstSizes, List.map_cons, List.length_cons, ih,
        List.length_take, List.length_drop, Nat.min_eq_left hle]

theorem map_length_split (xs : List α) : (p.split xs).map List.length = p.sizes xs.length :=
  p.map_length_firstBatches xs.length xs

@[simp] theorem sizes_zero : p.sizes 0 = [] := rfl

/-- The lengths are the first one and those of the rest. -/
theorem sizes_of_pos {n : Nat} (h : 0 < n) :
    p.sizes n = p.nextLength n :: p.sizes (n - p.nextLength n) := by
  have hle := p.nextLength_le n
  have hne : List.replicate n () ≠ [] := by
    rw [ne_eq, List.replicate_eq_nil_iff]
    omega
  have hsplit := congrArg (List.map List.length) (p.split_of_ne_nil hne)
  simpa only [List.map_cons, map_length_split, List.length_replicate, List.length_take,
    List.length_drop, Nat.min_eq_left hle] using hsplit

/-! ### The closed form -/

/-- Fewer tasks than `least` go one at a time. -/
theorem sizes_of_lt_least : ∀ {n : Nat}, n < p.least → p.sizes n = List.replicate n 1 := by
  intro n
  induction n with
  | zero => exact fun _ => rfl
  | succ n ih =>
    intro h
    have hone : p.nextLength (n + 1) = 1 := by
      unfold nextLength
      split <;> omega
    rw [p.sizes_of_pos (Nat.succ_pos n), hone, Nat.succ_sub_one, ih (by omega),
      List.replicate_succ]

/-- A rest that fits one registration goes whole if it has at least `least` tasks. -/
theorem sizes_of_lt_most {r : Nat} (h : r < p.most) :
    p.sizes r = if p.least ≤ r then [r] else List.replicate r 1 := by
  split
  case isTrue hleast =>
    have := p.two_le_least
    have hall : p.nextLength r = r := by
      unfold nextLength
      split <;> omega
    rw [p.sizes_of_pos (by omega), hall, Nat.sub_self, sizes_zero]
  case isFalse hleast => exact p.sizes_of_lt_least (by omega)

/-- **The lengths in closed form**: full batches as long as they fit, then the rest. -/
theorem sizes_eq (q : Nat) {r : Nat} (h : r < p.most) :
    p.sizes (q * p.most + r) =
      List.replicate q p.most ++ if p.least ≤ r then [r] else List.replicate r 1 := by
  induction q with
  | zero => rw [Nat.zero_mul, Nat.zero_add, p.sizes_of_lt_most h, List.replicate_zero,
      List.nil_append]
  | succ q ih =>
    have hsum : (q + 1) * p.most + r = p.most + (q * p.most + r) := by
      rw [Nat.succ_mul]
      omega
    rw [hsum, p.sizes_of_pos (by omega), p.nextLength_of_most_le (by omega),
      Nat.add_sub_cancel_left, ih, List.replicate_succ, List.cons_append]

/-! ### The iterator over the batches -/

/-- The next batch of an iterator with the list `rest` still to be cut, and what is left then;
no batch when no length is chosen for it. -/
def cut (rest : List α) : Option (List α × List α) :=
  if p.nextLength rest.length = 0 then none
  else some (rest.splitAt (p.nextLength rest.length))

/-- An iterator over the batches of `rest` gives `batches` and comes to its end. -/
inductive CutsInto (p : BatchPolicy) : List α → List (List α) → Prop
  | ended {rest : List α} : p.cut rest = none → CutsInto p rest []
  | next {rest batch left : List α} {batches : List (List α)} :
      p.cut rest = some (batch, left) → CutsInto p left batches →
        CutsInto p rest (batch :: batches)

theorem cut_nil : p.cut ([] : List α) = none := by
  simp [cut]

theorem cut_of_ne_nil {rest : List α} (h : rest ≠ []) :
    p.cut rest = some (rest.take (p.nextLength rest.length),
      rest.drop (p.nextLength rest.length)) := by
  have hpos := p.nextLength_pos (List.length_pos_iff.mpr h)
  rw [cut, if_neg (by omega), List.splitAt_eq]

/-- The iterator gives the batches of the list and ends, since every batch makes what is left
shorter. -/
theorem cutsInto_split (xs : List α) : p.CutsInto xs (p.split xs) := by
  induction hlen : xs.length using Nat.strongRecOn generalizing xs with
  | ind n ih =>
    by_cases hne : xs = []
    · obtain rfl := hne
      exact .ended p.cut_nil
    · have hpos := p.nextLength_pos (List.length_pos_iff.mpr hne)
      rw [p.split_of_ne_nil hne]
      refine .next (p.cut_of_ne_nil hne) (ih _ ?_ _ rfl)
      have := p.nextLength_le xs.length
      rw [List.length_drop]
      omega

/-! ### The search of the arities -/

/-- The first arity that fits `remaining` tasks among those from `arity` down to `least`, or one
task. -/
def search (p : BatchPolicy) (remaining : Nat) : Nat → Nat
  | 0 => 1
  | arity + 1 =>
    if arity + 1 < p.least then 1
    else if arity + 1 ≤ remaining then arity + 1
    else p.search remaining arity

theorem search_eq (remaining arity : Nat) :
    p.search remaining arity =
      if p.least ≤ min remaining arity then min remaining arity else 1 := by
  have := p.two_le_least
  induction arity with
  | zero => rw [search, if_neg (by omega)]
  | succ arity ih =>
    rw [search]
    split
    · rw [if_neg (by omega)]
    · split
      · rw [if_pos (by omega), Nat.min_eq_right (by omega)]
      · rw [ih, Nat.min_eq_left (by omega), Nat.min_eq_left (by omega)]

/-- The search from the largest arity finds the length of the next batch. -/
theorem search_most {n : Nat} (h : 0 < n) : p.search n p.most = p.nextLength n := by
  have := p.least_le_most
  rw [search_eq, nextLength]
  by_cases hleast : p.least ≤ n
  · rw [if_pos (by omega), if_pos hleast]
  · rw [if_neg (by omega), if_neg hleast, Nat.min_eq_right (by omega)]

/-- The arities that the search finds, one after the other, until no task is left. -/
def searchedSizes (p : BatchPolicy) (remaining : Nat) : List Nat :=
  if _h : 0 < remaining then
    p.search remaining p.most :: p.searchedSizes (remaining - p.search remaining p.most)
  else []
termination_by remaining
decreasing_by
  have hpos := p.nextLength_pos _h
  rw [p.search_most _h]
  omega

theorem searchedSizes_eq_sizes (n : Nat) : p.searchedSizes n = p.sizes n := by
  induction n using Nat.strongRecOn with
  | ind n ih =>
    rw [searchedSizes]
    split
    case isTrue hpos =>
      have hnext := p.nextLength_pos hpos
      rw [p.search_most hpos, p.sizes_of_pos hpos, ih _ (by omega)]
    case isFalse hzero =>
      obtain rfl : n = 0 := by omega
      rfl

/-! ### All of it -/

/-- **The greedy partition in closed form.** An iterator over a list of `q * most + r` tasks, with
`r < most`, comes to its end; its batches are the list again, in order; there are `q` of length
`most`, then one of length `r` if that is not below `least`, else `r` of length one. The loop that
counts lengths alone and the search of the arities find the same lengths. -/
theorem split_closed_form (q r : Nat) (hr : r < p.most) (xs : List α)
    (hlen : xs.length = q * p.most + r) :
    p.CutsInto xs (p.split xs) ∧ (p.split xs).flatten = xs ∧
      (p.split xs).map List.length =
        List.replicate q p.most ++ (if p.least ≤ r then [r] else List.replicate r 1) ∧
      (p.split xs).map List.length = p.sizes xs.length ∧
      (p.split xs).map List.length = p.searchedSizes xs.length := by
  refine ⟨p.cutsInto_split xs, p.flatten_split xs, ?_, p.map_length_split xs, ?_⟩
  · rw [p.map_length_split, hlen, p.sizes_eq q hr]
  · rw [p.map_length_split, p.searchedSizes_eq_sizes]

/-- Arities from three to four. -/
def threeToFour : BatchPolicy := ⟨3, 4, by decide, by decide, by decide⟩

/-- Six tasks under `threeToFour`: one full batch, and a rest of two below the least arity. -/
theorem split_closed_form_six :
    2 < threeToFour.most ∧ [10, 11, 12, 13, 14, 15].length = 1 * threeToFour.most + 2 ∧
      (threeToFour.split [10, 11, 12, 13, 14, 15]).map List.length = [4, 1, 1] ∧
      threeToFour.CutsInto [10, 11, 12, 13, 14, 15] [[10, 11, 12, 13], [14], [15]] ∧
      threeToFour.searchedSizes 6 = [4, 1, 1] := by
  obtain ⟨hcuts, -, hlengths, -, hsearch⟩ :=
    threeToFour.split_closed_form 1 2 (by decide) [10, 11, 12, 13, 14, 15] rfl
  exact ⟨by decide, rfl, hlengths, hcuts, hsearch.symm.trans hlengths⟩

end BatchPolicy

end EdgeWait
