/-
How far the greedy partition is from one into as few registrations as possible.

A registration takes one task, or from `least` to `most` of them (`IsArity`), and tasks may be
parted into such registrations in any way (`Parts`).

* `le_length_mul_most` — `m` registrations hold at most `m * most` tasks, in whatever way they are
  parted;
* `length_sizes` — the number of greedy batches, by quotient and remainder;
* `length_sizes_near_fewest` — there are at most `least - 2` more of them than there must be: none
  too many where `least` is two, and just that many for `most + least - 1` tasks.

Design notes: the lower bound is the ceiling of the number of tasks over `most`. It is not always
reached, so the distance is taken from the least number of parts that there is; the ceiling only
bounds that number from below.
-/
import EdgeWait.Config
import EdgeWait.Proofs.Splitting
import Mathlib.Algebra.GroupWithZero.Nat
import Mathlib.Algebra.Order.BigOperators.Group.List
import Mathlib.Algebra.Order.Group.Nat
import Mathlib.Data.Nat.Find
import Mathlib.Order.Bounds.Basic

namespace EdgeWait

namespace BatchPolicy

variable (p : BatchPolicy)

/-- A number of tasks that one registration can take. -/
def IsArity (k : Nat) : Prop := k = 1 ∨ p.least ≤ k ∧ k ≤ p.most

/-- A way to part `n` tasks into registrations, by the number of tasks of each. -/
structure Parts (n : Nat) (parts : List Nat) : Prop where
  arity : ∀ k ∈ parts, p.IsArity k
  sum : parts.sum = n

/-- The numbers of registrations that `n` tasks can be parted into. -/
def partCounts (n : Nat) : Set Nat := {m | ∃ parts, p.Parts n parts ∧ parts.length = m}

theorem most_pos : 0 < p.most := by
  have := p.two_le_least
  have := p.least_le_most
  omega

/-! ### The lower bound -/

/-- What a partition holds is bounded by the number of its parts. -/
theorem le_length_mul_most {n : Nat} {parts : List Nat} (h : p.Parts n parts) :
    n ≤ parts.length * p.most := by
  have hmost : ∀ k ∈ parts, k ≤ p.most := by
    intro k hk
    have := p.most_pos
    rcases h.arity k hk with rfl | ⟨-, hle⟩ <;> omega
  rw [← h.sum]
  exact List.sum_le_card_nsmul parts p.most hmost

theorem ceil_le_of_mem_partCounts {n m : Nat} (h : m ∈ p.partCounts n) :
    (n + p.most - 1) / p.most ≤ m := by
  have hpos := p.most_pos
  obtain ⟨parts, hparts, rfl⟩ := h
  have hbound := p.le_length_mul_most hparts
  rw [Nat.div_le_iff_le_mul hpos]
  omega

/-! ### The greedy partition is one of those compared -/

theorem sizes_eq_div_mod (n : Nat) :
    p.sizes n = List.replicate (n / p.most) p.most ++
      if p.least ≤ n % p.most then [n % p.most] else List.replicate (n % p.most) 1 := by
  have h := p.sizes_eq (n / p.most) (Nat.mod_lt n p.most_pos)
  rwa [Nat.div_add_mod'] at h

theorem sum_sizes (n : Nat) : (p.sizes n).sum = n := by
  have hflat := congrArg List.length (p.flatten_split (List.replicate n ()))
  rwa [List.length_flatten, map_length_split, List.length_replicate] at hflat

theorem parts_sizes (n : Nat) : p.Parts n (p.sizes n) where
  arity := by
    intro k hk
    have hrest := Nat.mod_lt n p.most_pos
    rw [p.sizes_eq_div_mod, List.mem_append] at hk
    rcases hk with hfull | hlast
    · rw [List.eq_of_mem_replicate hfull]
      exact .inr ⟨p.least_le_most, Nat.le_refl _⟩
    -- the rest is one batch if it is large enough, and single tasks if not
    · split at hlast
      case isTrue hleast =>
        rw [List.mem_singleton.mp hlast]
        exact .inr ⟨hleast, by omega⟩
      case isFalse => exact .inl (List.eq_of_mem_replicate hlast)
  sum := p.sum_sizes n

theorem length_sizes_mem_partCounts (n : Nat) : (p.sizes n).length ∈ p.partCounts n :=
  ⟨p.sizes n, p.parts_sizes n, rfl⟩

/-- **The number of greedy batches**: one for every full batch, and for the rest one or as many as
there are tasks in it. -/
theorem length_sizes (n : Nat) :
    (p.sizes n).length =
      n / p.most + if p.least ≤ n % p.most then 1 else n % p.most := by
  rw [p.sizes_eq_div_mod, List.length_append, List.length_replicate]
  split
  · rw [List.length_singleton]
  · rw [List.length_replicate]

/-- The ceiling by quotient and remainder: a rest takes one more. -/
theorem ceil_eq (n : Nat) :
    (n + p.most - 1) / p.most = n / p.most + if n % p.most = 0 then 0 else 1 := by
  have hpos := p.most_pos
  have hrest := Nat.mod_lt n hpos
  have hn := Nat.div_add_mod n p.most
  split
  case isTrue hzero =>
    -- without a rest, what is added for rounding up does not reach the next multiple
    have hshift : n + p.most - 1 = (p.most - 1) + p.most * (n / p.most) := by omega
    rw [hshift, Nat.add_mul_div_left _ _ hpos, Nat.div_eq_of_lt (by omega)]
    omega
  case isFalse hrest' =>
    have hshift : n + p.most - 1 = (n % p.most - 1) + p.most * (n / p.most + 1) := by
      rw [Nat.mul_succ]
      omega
    rw [hshift, Nat.add_mul_div_left _ _ hpos, Nat.div_eq_of_lt (by omega)]
    omega

/-- Single tasks stand for a rest of at most `least - 1`, which takes one registration at least. -/
theorem length_sizes_le_ceil (n : Nat) :
    (p.sizes n).length ≤ (n + p.most - 1) / p.most + (p.least - 2) := by
  have := p.two_le_least
  rw [p.length_sizes, p.ceil_eq]
  split <;> split <;> omega

/-! ### The distance from the least number -/

theorem exists_isLeast_partCounts (n : Nat) : ∃ fewest, IsLeast (p.partCounts n) fewest := by
  classical
  have hsome : ∃ m, m ∈ p.partCounts n := ⟨_, p.length_sizes_mem_partCounts n⟩
  exact ⟨Nat.find hsome, Nat.find_spec hsome, fun _ hm => Nat.find_min' hsome hm⟩

/-- One task below `least` after a full batch: the two together fit two registrations. -/
theorem isLeast_partCounts_most_add (h : p.least < p.most) :
    IsLeast (p.partCounts (p.most + p.least - 1)) 2 := by
  have := p.two_le_least
  refine ⟨⟨[p.most - 1, p.least], ⟨?_, ?_⟩, rfl⟩, ?_⟩
  · intro k hk
    rcases List.mem_pair.mp hk with rfl | rfl <;> exact .inr (by omega)
  · rw [List.sum_cons, List.sum_singleton]
    omega
  · intro m hm
    have hceil := p.ceil_le_of_mem_partCounts hm
    have htwo : 2 ≤ (p.most + p.least - 1 + p.most - 1) / p.most := by
      rw [Nat.le_div_iff_mul_le p.most_pos]
      omega
    omega

theorem length_sizes_most_add : (p.sizes (p.most + p.least - 1)).length = p.least := by
  have := p.two_le_least
  have := p.least_le_most
  have hsum : p.most + p.least - 1 = 1 * p.most + (p.least - 1) := by omega
  rw [hsum, p.sizes_eq 1 (by omega), if_neg (by omega), List.length_append,
    List.length_replicate, List.length_replicate]
  omega

/-- **Greedy batches are near the fewest there can be.** Among all partitions of `n` tasks into
registrations there is one of least number, and the greedy one exceeds it by at most `least - 2`.
Where `least` is two, as it is by default, the greedy partition has the least number of parts, the
ceiling of `n / most`. For `least < most` the bound is reached: `most + least - 1` tasks make
`least` greedy batches, and two would do. -/
theorem length_sizes_near_fewest (n : Nat) :
    (∃ fewest, IsLeast (p.partCounts n) fewest ∧ (p.sizes n).length ≤ fewest + (p.least - 2)) ∧
      (p.least = 2 → IsLeast (p.partCounts n) (p.sizes n).length ∧
        (p.sizes n).length = (n + p.most - 1) / p.most) ∧
      (∃ usual, BatchingConfig.policy {} = .ok usual ∧ usual.least = 2) ∧
      (p.least < p.most → (p.sizes (p.most + p.least - 1)).length = p.least ∧
        IsLeast (p.partCounts (p.most + p.least - 1)) 2) := by
  have hlower : ∀ m ∈ p.partCounts n, (n + p.most - 1) / p.most ≤ m :=
    fun m hm => p.ceil_le_of_mem_partCounts hm
  have hupper := p.length_sizes_le_ceil n
  refine ⟨?_, ?_, ⟨_, rfl, rfl⟩, fun h =>
    ⟨p.length_sizes_most_add, p.isLeast_partCounts_most_add h⟩⟩
  · obtain ⟨fewest, hleast⟩ := p.exists_isLeast_partCounts n
    have := hlower fewest hleast.1
    exact ⟨fewest, hleast, by omega⟩
  · intro htwo
    have hceil := hlower _ (p.length_sizes_mem_partCounts n)
    refine ⟨⟨p.length_sizes_mem_partCounts n, ?_⟩, by omega⟩
    intro m hm
    have := hlower m hm
    omega

/-- Six tasks under arities from three to four make three greedy batches, and two of three tasks
would do; under the default arities no number of tasks is parted into fewer. -/
theorem length_sizes_near_fewest_six :
    (threeToFour.least < threeToFour.most ∧ threeToFour.sizes 6 = [4, 1, 1] ∧
      IsLeast (threeToFour.partCounts 6) 2) ∧
      ∃ usual, BatchingConfig.policy {} = .ok usual ∧ usual.least = 2 ∧
        usual.sizes 17 = [8, 8, 1] ∧ IsLeast (usual.partCounts 17) 3 := by
  refine ⟨⟨by decide, rfl, ((threeToFour.length_sizes_near_fewest 6).2.2.2 (by decide)).2⟩, ?_⟩
  obtain ⟨usual, heq, htwo⟩ := (threeToFour.length_sizes_near_fewest 6).2.2.1
  have hmost : usual.sizes 17 = [8, 8, 1] := by
    obtain rfl := Except.ok.inj heq
    rfl
  have hleast := ((usual.length_sizes_near_fewest 17).2.1 htwo).1
  rw [hmost] at hleast
  exact ⟨usual, heq, htwo, hmost, hleast⟩

end BatchPolicy

end EdgeWait
