/-
The greedy partition of a list into batches.

* `flatten_split` — the batches in their order are the list again;
* `length_of_mem_split` — each batch has at least one task and at most `most`.
-/
import EdgeWait.BatchPolicy

namespace EdgeWait

namespace BatchPolicy

variable {α : Type} (p : BatchPolicy)

theorem nextLength_pos {n : Nat} (h : 0 < n) : 0 < p.nextLength n := by
  have := p.two_le_least
  have := p.least_le_most
  unfold nextLength
  split <;> omega

theorem nextLength_le (n : Nat) : p.nextLength n ≤ n := by
  unfold nextLength
  split <;> omega

theorem nextLength_le_most (n : Nat) : p.nextLength n ≤ p.most := by
  have := p.two_le_least
  have := p.least_le_most
  unfold nextLength
  split <;> omega

/-- With as many batches allowed as there are elements, none is left over. -/
theorem flatten_firstBatches :
    ∀ (n : Nat) (xs : List α), xs.length ≤ n → (p.firstBatches n xs).flatten = xs := by
  intro n
  induction n with
  | zero =>
    intro xs h
    obtain rfl : xs = [] := List.length_eq_zero_iff.mp (by omega)
    rfl
  | succ n ih =>
    intro xs h
    cases xs with
    | nil => rfl
    | cons x xs =>
      -- a batch is never empty, so the fuel lasts for the rest of the list
      have hpos : 0 < p.nextLength (xs.length + 1) := p.nextLength_pos (Nat.succ_pos _)
      have hrest : ((x :: xs).drop (p.nextLength (xs.length + 1))).length ≤ n := by
        simp only [List.length_drop, List.length_cons] at *
        omega
      simp only [firstBatches, List.flatten_cons, List.length_cons]
      rw [ih _ hrest]
      exact List.take_append_drop _ _

/-- **Nothing is lost, repeated or moved** by a partition. -/
theorem flatten_split (xs : List α) : (p.split xs).flatten = xs :=
  p.flatten_firstBatches xs.length xs (Nat.le_refl _)

theorem length_of_mem_firstBatches :
    ∀ (n : Nat) (xs : List α), ∀ batch ∈ p.firstBatches n xs,
      1 ≤ batch.length ∧ batch.length ≤ p.most := by
  intro n
  induction n with
  | zero => simp [firstBatches]
  | succ n ih =>
    intro xs batch hmem
    cases xs with
    | nil => simp [firstBatches] at hmem
    | cons x xs =>
      have hpos : 0 < p.nextLength (xs.length + 1) := p.nextLength_pos (Nat.succ_pos _)
      have hle := p.nextLength_le (xs.length + 1)
      have hmost := p.nextLength_le_most (xs.length + 1)
      rcases List.mem_cons.mp hmem with rfl | hmem
      · simp only [List.length_take, List.length_cons]
        omega
      · exact ih _ batch hmem

/-- **Every batch fits a registration.** -/
theorem length_of_mem_split {xs batch : List α} (h : batch ∈ p.split xs) :
    1 ≤ batch.length ∧ batch.length ≤ p.most :=
  p.length_of_mem_firstBatches xs.length xs batch h

end BatchPolicy

end EdgeWait
