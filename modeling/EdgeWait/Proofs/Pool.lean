/-
The pool of ids: each id is free, or in use, and never both.

* `alloc_spec`, `release_spec` — what the two operations do to the stack and to the flags;
* `available_add_length` — the free ids and the ids in use make up the capacity;
* `Built.spec`, `pool_valid` — so it is in a new pool, whatever picks have shuffled it.

Design notes: a shuffle is a sequence of swaps, so it only permutes the stack (`shuffle_perm`);
where the picks come from does not matter.
-/
import EdgeWait.Config
import Mathlib.Algebra.Group.Nat.Defs
import Mathlib.Data.List.Nodup

namespace EdgeWait

/-! ### Shuffling -/

theorem swapIfInBounds_perm {α : Type} (xs : Array α) (i j : Nat) :
    (xs.swapIfInBounds i j).toList.Perm xs.toList := by
  unfold Array.swapIfInBounds
  split
  · split
    · exact (Array.perm_iff_toList_perm.mp (Array.swap_perm _ _))
    · exact List.Perm.refl _
  · exact List.Perm.refl _

theorem swapDown_perm {α : Type} (picks : List Nat) :
    ∀ (i : Nat) (xs : Array α), (swapDown xs i picks).toList.Perm xs.toList := by
  induction picks with
  | nil =>
    intro i xs
    cases i <;> exact List.Perm.refl _
  | cons j picks ih =>
    intro i xs
    cases i with
    | zero => exact List.Perm.refl _
    | succ i => exact (ih i _).trans (swapIfInBounds_perm xs (i + 1) j)

/-- A shuffle permutes, whatever the picks are. -/
theorem shuffle_perm {α : Type} (picks : List Nat) (xs : Array α) :
    (shuffle picks xs).toList.Perm xs.toList :=
  swapDown_perm picks (xs.size - 1) xs

theorem CallbackId.index_inj {i j : CallbackId} (h : i.index = j.index) : i = j := by
  cases i
  cases j
  exact congrArg CallbackId.mk (UInt32.toNat_inj.mp h)

namespace IdPool

/-- The stack of free ids holds, once each, the ids that are not flagged. -/
structure Valid (p : IdPool) : Prop where
  free_nodup : p.free.Nodup
  mem_free_iff : ∀ id, id ∈ p.free ↔ p.inUse[id.index]? = some false
  capacity_lt : p.capacity < 2 ^ 32

/-- The ids that a pool of some capacity manages. -/
def ids (capacity : Nat) : List CallbackId :=
  (List.range capacity).map fun n => ⟨UInt32.ofNat n⟩

theorem index_ofNat {n : Nat} (h : n < 2 ^ 32) :
    (CallbackId.mk (UInt32.ofNat n)).index = n := by
  rw [CallbackId.index, UInt32.toNat_ofNat']
  exact Nat.mod_eq_of_lt h

theorem mem_ids_iff {capacity : Nat} (h : capacity < 2 ^ 32) (id : CallbackId) :
    id ∈ ids capacity ↔ id.index < capacity := by
  simp only [ids, List.mem_map, List.mem_range]
  constructor
  · rintro ⟨n, hn, rfl⟩
    rwa [index_ofNat (Nat.lt_trans hn h)]
  · intro hid
    refine ⟨id.index, hid, CallbackId.index_inj ?_⟩
    exact index_ofNat (Nat.lt_trans hid h)

theorem nodup_ids {capacity : Nat} (h : capacity < 2 ^ 32) : (ids capacity).Nodup := by
  refine List.Nodup.map_on ?_ List.nodup_range
  intro n hn m hm heq
  have hidx := congrArg CallbackId.index heq
  rwa [index_ofNat (Nat.lt_trans (List.mem_range.mp hn) h),
    index_ofNat (Nat.lt_trans (List.mem_range.mp hm) h)] at hidx

/-! ### Handing out and taking back -/

theorem isInUse_iff {p : IdPool} {id : CallbackId} :
    p.isInUse id = true ↔ p.inUse[id.index]? = some true := by
  unfold isInUse
  cases p.inUse[id.index]? <;> simp

theorem Valid.not_mem_free {p : IdPool} (h : p.Valid) {id : CallbackId}
    (hid : p.isInUse id = true) : id ∉ p.free := by
  rw [h.mem_free_iff, isInUse_iff.mp hid]
  simp

/-- The flags after one of them has been set. -/
theorem inUse_set {p : IdPool} {id : CallbackId} {b : Bool} (hid : p.inUse[id.index]? = some b)
    (v : Bool) (i : CallbackId) :
    (p.inUse.setIfInBounds id.index v)[i.index]? =
      if i = id then some v else p.inUse[i.index]? := by
  have hlt : id.index < p.inUse.size := (Array.getElem?_eq_some_iff.mp hid).choose
  by_cases hi : i = id
  · subst hi
    simp [hlt]
  · have hne : id.index ≠ i.index := fun hc => hi (CallbackId.index_inj hc).symm
    simp [hi, hne]

/-- An allocation fails on an empty stack, and takes the top of any other. -/
theorem alloc_spec {p : IdPool} (h : p.Valid) :
    (p.free = [] ∧ p.alloc = .ok none) ∨
      ∃ id p', p.alloc = .ok (some (id, p')) ∧ p'.Valid ∧ p.free = id :: p'.free ∧
        p'.capacity = p.capacity ∧ p.isInUse id = false ∧
        ∀ i, p'.isInUse i = true ↔ i = id ∨ p.isInUse i = true := by
  cases hf : p.free with
  | nil => exact .inl ⟨rfl, by simp [alloc, hf]⟩
  | cons id rest =>
    -- the top of the stack is not flagged, so that the check of the flag passes
    have hflag : p.inUse[id.index]? = some false := (h.mem_free_iff id).mp (by simp [hf])
    have hid : p.isInUse id = false := by simp [isInUse, hflag]
    obtain ⟨hnew, hrest⟩ := List.nodup_cons.mp (hf ▸ h.free_nodup)
    refine .inr ⟨id, ⟨rest, p.inUse.setIfInBounds id.index true⟩, ?_, ?_, rfl, ?_, hid, ?_⟩
    · simp [alloc, hf, hid]
    · refine ⟨hrest, fun i => ?_, by simpa [capacity] using h.capacity_lt⟩
      rw [inUse_set hflag]
      by_cases hi : i = id
      · simp [hi, hnew]
      · simp [hi, ← h.mem_free_iff, hf]
    · simp [capacity]
    · intro i
      rw [isInUse_iff, isInUse_iff, inUse_set hflag]
      by_cases hi : i = id <;> simp [hi]

/-- An id that is in use can be taken back, and is the next one to be handed out. -/
theorem release_spec {p : IdPool} (h : p.Valid) {id : CallbackId} (hid : p.isInUse id = true) :
    ∃ p', p.release id = .ok p' ∧ p'.Valid ∧ p'.free = id :: p.free ∧
      p'.capacity = p.capacity ∧
      ∀ i, p'.isInUse i = true ↔ i ≠ id ∧ p.isInUse i = true := by
  have hflag := isInUse_iff.mp hid
  refine ⟨⟨id :: p.free, p.inUse.setIfInBounds id.index false⟩, ?_, ?_, rfl, ?_, ?_⟩
  · simp [release, hflag]
  · refine ⟨?_, fun i => ?_, by simpa [capacity] using h.capacity_lt⟩
    · exact List.nodup_cons.mpr ⟨h.not_mem_free hid, h.free_nodup⟩
    · rw [inUse_set hflag]
      by_cases hi : i = id
      · simp [hi]
      · simp [hi, ← h.mem_free_iff]
  · simp [capacity]
  · intro i
    rw [isInUse_iff, isInUse_iff, inUse_set hflag]
    by_cases hi : i = id <;> simp [hi]

/-- The free ids and a list of those in use make up the capacity. -/
theorem available_add_length {p : IdPool} (h : p.Valid) {used : List CallbackId}
    (hnodup : used.Nodup) (hused : ∀ id, id ∈ used ↔ p.isInUse id = true) :
    p.available + used.length = p.capacity := by
  have hdisjoint : (p.free ++ used).Nodup := by
    refine List.nodup_append'.mpr ⟨h.free_nodup, hnodup, ?_⟩
    intro id hfree hmem
    exact h.not_mem_free ((hused id).mp hmem) hfree
  -- each id of the pool is flagged or not, so it is in one of the two lists
  have hperm : (p.free ++ used).Perm (ids p.capacity) := by
    refine (List.perm_ext_iff_of_nodup hdisjoint (nodup_ids h.capacity_lt)).mpr fun id => ?_
    rw [List.mem_append, h.mem_free_iff, hused, isInUse_iff, mem_ids_iff h.capacity_lt, capacity]
    constructor
    · rintro (hid | hid) <;> exact (Array.getElem?_eq_some_iff.mp hid).choose
    · intro hlt
      rw [Array.getElem?_eq_getElem hlt]
      cases p.inUse[id.index] <;> simp
  simpa [available, ids] using hperm.length_eq

/-! ### New pools -/

theorem valid_of_perm {p : IdPool} {n : Nat} (hn : n < 2 ^ 32) (hfree : p.free.Perm (ids n))
    (hflags : p.inUse = Array.replicate n false) : p.Valid where
  free_nodup := hfree.nodup_iff.mpr (nodup_ids hn)
  mem_free_iff := by
    intro id
    rw [hfree.mem_iff, mem_ids_iff hn, hflags, Array.getElem?_replicate]
    simp
  capacity_lt := by simpa [capacity, hflags] using hn

theorem not_isInUse_of_flags {p : IdPool} {n : Nat} (hflags : p.inUse = Array.replicate n false)
    (id : CallbackId) : p.isInUse id = false := by
  rw [isInUse, hflags, Array.getElem?_replicate]
  split <;> rfl

theorem shuffledBy_perm (picks : List Nat) (capacity : UInt32) :
    (shuffledBy picks capacity).free.Perm (ids capacity.toNat) := by
  have hshuffle := shuffle_perm picks (ascending capacity).free.reverse.toArray
  exact ((List.reverse_perm _).trans hshuffle).trans (List.reverse_perm _)

/-- A pool as it is made: in order, shuffled, or as a configuration says. -/
inductive Built : UInt32 → IdPool → Prop where
  | ascending (capacity : UInt32) : Built capacity (.ascending capacity)
  | shuffled (capacity : UInt32) (seed : UInt64) : Built capacity (.shuffled capacity seed)
  | shuffledBy (picks : List Nat) (capacity : UInt32) : Built capacity (.shuffledBy picks capacity)
  | configured (c : PoolConfig) (picks : List Nat) : Built c.capacity (c.pool picks)

/-- **A new pool is valid**: its stack holds all ids of the range, and no flag is set. -/
theorem Built.spec {capacity : UInt32} {p : IdPool} (h : Built capacity p) :
    p.Valid ∧ p.free.Perm (ids capacity.toNat) ∧ p.inUse = Array.replicate capacity.toNat false := by
  have hnew : p.free.Perm (ids capacity.toNat) ∧
      p.inUse = Array.replicate capacity.toNat false := by
    cases h with
    | ascending => exact ⟨List.Perm.refl _, rfl⟩
    | shuffled seed => exact ⟨shuffledBy_perm _ _, rfl⟩
    | shuffledBy picks => exact ⟨shuffledBy_perm _ _, rfl⟩
    | configured c picks =>
      unfold PoolConfig.pool
      split
      · exact ⟨List.Perm.refl _, rfl⟩
      · exact ⟨shuffledBy_perm _ _, rfl⟩
      · exact ⟨shuffledBy_perm _ _, rfl⟩
  exact ⟨valid_of_perm capacity.toNat_lt hnew.1 hnew.2, hnew⟩

/-- A pool that is made as a configuration says has no id in use, whatever its order is drawn
from. -/
theorem pool_valid (c : PoolConfig) (picks : List Nat) :
    (c.pool picks).Valid ∧ (c.pool picks).capacity = c.capacity.toNat ∧
      ∀ id, (c.pool picks).isInUse id = false := by
  obtain ⟨hvalid, -, hflags⟩ := (Built.configured c picks).spec
  exact ⟨hvalid, by simp [capacity, hflags], not_isInUse_of_flags hflags⟩

end IdPool

end EdgeWait
