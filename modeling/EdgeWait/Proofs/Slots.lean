/-
A table of slots is a finite map from keys to values.

* `get?_insert` — an insertion makes the issued key find the value and leaves every other key alone;
* `get?_insert_key` — the issued key found nothing before;
* `get?_erase` — an erasure makes the erased key find nothing and leaves every other key alone;
* `mem_toList_iff`, `nodup_keys` — the listing has every live key once.

Design notes: none of this depends on how often a slot has been reused.  A slot holds one value at a
time, under the one key of its present generation, so keys are told apart among the live ones even
when a generation has come back.  What is needed is that the free list names exactly the empty slots
(`Valid`), and that an index can name every slot.
-/
import EdgeWait.SlotMap
import Mathlib.Algebra.Group.Nat.Defs
import Mathlib.Data.List.Nodup
import Mathlib.Data.List.Perm.Subperm

namespace EdgeWait

theorem SlotKey.eq_of_parts {k k' : SlotKey} (hi : k.index = k'.index)
    (hg : k.generation = k'.generation) : k = k' := by
  cases k
  cases k'
  simp_all

namespace SlotMap

variable {α : Type}

/-- Every empty slot is on the free list, once, and no other slot is. -/
structure Valid (m : SlotMap α) : Prop where
  free_nodup : m.free.Nodup
  mem_free_iff : ∀ i, i ∈ m.free ↔ ∃ slot, m.slot? i = some slot ∧ slot.entry = none
  size_eq : m.live + m.free.length = m.slots.size
  size_le : m.slots.size ≤ 2 ^ 32

theorem valid_empty : (empty : SlotMap α).Valid where
  free_nodup := List.nodup_nil
  mem_free_iff := by simp [empty, slot?]
  size_eq := rfl
  size_le := Nat.zero_le _

theorem get?_eq_some_iff {m : SlotMap α} {k : SlotKey} {a : α} :
    m.get? k = some a ↔ m.slot? k.index = some ⟨k.generation, some a⟩ := by
  unfold get?
  cases hs : m.slot? k.index with
  | none => simp
  | some slot =>
    obtain ⟨g, e⟩ := slot
    by_cases hg : g = k.generation
    · simp [hg]
    · simp [hg]

@[simp] theorem get?_empty (k : SlotKey) : (empty : SlotMap α).get? k = none := by
  simp [get?, slot?, empty]

/-- A key whose slot holds no value finds nothing. -/
theorem get?_eq_none_of_entry {m : SlotMap α} {k : SlotKey} {slot : Slot α}
    (hs : m.slot? k.index = some slot) (he : slot.entry = none) : m.get? k = none := by
  simp [get?, hs, he]

/-! ### Insertion -/

/-- Nothing blocks the slot that the next value goes into. -/
theorem blockedSlot?_eq_none {m : SlotMap α} (h : m.Valid) : m.blockedSlot? = none := by
  unfold blockedSlot?
  cases hf : m.free with
  | nil => rfl
  | cons i rest =>
    obtain ⟨slot, hs, he⟩ := (h.mem_free_iff i).mp (by simp [hf])
    simp [hs, he]

theorem toNat_ofNat_size {m : SlotMap α} (hsize : m.slots.size < 2 ^ 32) :
    (UInt32.ofNat m.slots.size).toNat = m.slots.size := by
  rw [UInt32.toNat_ofNat']
  exact Nat.mod_eq_of_lt hsize

/-- The slots after an insertion, seen through their indices. -/
theorem slot?_insert {m : SlotMap α} (h : m.Valid) (hroom : m.free = [] → m.slots.size < 2 ^ 32)
    (a : α) (i : UInt32) :
    (m.insert a).2.slot? i =
      if i = (m.insert a).1.index then some ⟨(m.insert a).1.generation, some a⟩
      else m.slot? i := by
  unfold insert
  cases hf : m.free with
  | nil =>
    -- the value goes into a new slot, whose index does not wrap
    have hn := toNat_ofNat_size (hroom hf)
    by_cases hi : i = UInt32.ofNat m.slots.size
    · subst hi
      simp [slot?, hn]
    · have hne : i.toNat ≠ m.slots.size := by
        intro hc
        exact hi (UInt32.toNat_inj.mp (hc.trans hn.symm))
      simp [slot?, hi, Array.getElem?_push, hne]
  | cons j rest =>
    obtain ⟨slot, hs, he⟩ := (h.mem_free_iff j).mp (by simp [hf])
    have hlt : j.toNat < m.slots.size := (Array.getElem?_eq_some_iff.mp hs).choose
    by_cases hi : i = j
    · subst hi
      simp [slot?, hlt]
    · have hne : j.toNat ≠ i.toNat := fun hc => hi (UInt32.toNat_inj.mp hc).symm
      simp [slot?, hi, hne]

/-- The slot that an insertion uses was empty, at the generation of the issued key, or is new. -/
theorem slot?_insert_key {m : SlotMap α} (h : m.Valid)
    (hroom : m.free = [] → m.slots.size < 2 ^ 32) (a : α) :
    m.slot? (m.insert a).1.index = some ⟨(m.insert a).1.generation, none⟩ ∨
      (m.slot? (m.insert a).1.index = none ∧ (m.insert a).1.generation = 0) := by
  unfold insert
  cases hf : m.free with
  | nil =>
    right
    simp [slot?, toNat_ofNat_size (hroom hf)]
  | cons j rest =>
    left
    obtain ⟨⟨g, e⟩, hs, he⟩ := (h.mem_free_iff j).mp (by simp [hf])
    simp_all

/-- **The issued key is fresh**: it found nothing before. -/
theorem get?_insert_key {m : SlotMap α} (h : m.Valid)
    (hroom : m.free = [] → m.slots.size < 2 ^ 32) (a : α) :
    m.get? (m.insert a).1 = none := by
  rcases slot?_insert_key h hroom a with hs | ⟨hs, -⟩
  · exact get?_eq_none_of_entry hs rfl
  · simp [get?, hs]

theorem get?_insert {m : SlotMap α} (h : m.Valid) (hroom : m.free = [] → m.slots.size < 2 ^ 32)
    (a : α) (k : SlotKey) :
    (m.insert a).2.get? k = if k = (m.insert a).1 then some a else m.get? k := by
  by_cases hk : k = (m.insert a).1
  · rw [if_pos hk, get?_eq_some_iff, slot?_insert h hroom, if_pos (by rw [hk]), hk]
  · rw [if_neg hk]
    by_cases hi : k.index = (m.insert a).1.index
    · -- the same slot at another generation: nothing is found, before or after
      have hg : (m.insert a).1.generation ≠ k.generation := by
        intro hg
        exact hk (SlotKey.eq_of_parts hi hg.symm)
      have hafter : (m.insert a).2.get? k = none := by
        simp [get?, slot?_insert h hroom, hi, hg]
      have hbefore : m.get? k = none := by
        rcases slot?_insert_key h hroom a with hs | ⟨hs, -⟩
        · exact get?_eq_none_of_entry (hi ▸ hs) rfl
        · simp [get?, hi, hs]
      rw [hafter, hbefore]
    · simp [get?, slot?_insert h hroom, hi]

@[simp] theorem live_insert (m : SlotMap α) (a : α) : (m.insert a).2.live = m.live + 1 := by
  unfold insert
  split <;> rfl

/-- The table grows when no slot is free. -/
theorem size_insert (m : SlotMap α) (a : α) :
    (m.insert a).2.slots.size = m.slots.size + if m.free = [] then 1 else 0 := by
  unfold insert
  cases hf : m.free with
  | nil => simp
  | cons i rest => simp

theorem live_le_size {m : SlotMap α} (h : m.Valid) : m.live ≤ m.slots.size := by
  rw [← h.size_eq]
  exact Nat.le_add_right _ _

theorem insert_valid {m : SlotMap α} (h : m.Valid) (hroom : m.free = [] → m.slots.size < 2 ^ 32)
    (a : α) : (m.insert a).2.Valid where
  free_nodup := by
    unfold insert
    cases hf : m.free with
    | nil => exact List.nodup_nil
    | cons j rest => exact (List.nodup_cons.mp (hf ▸ h.free_nodup)).2
  mem_free_iff := by
    intro i
    rw [slot?_insert h hroom]
    -- only the slot of the issued key leaves the free list
    have hfree : i ∈ (m.insert a).2.free ↔ i ∈ m.free ∧ i ≠ (m.insert a).1.index := by
      unfold insert
      cases hf : m.free with
      | nil => simp
      | cons j rest =>
        have hj := (List.nodup_cons.mp (hf ▸ h.free_nodup)).1
        by_cases hi : i = j
        · subst hi
          simp [hj]
        · simp [hi]
    rw [hfree, h.mem_free_iff]
    by_cases hi : i = (m.insert a).1.index
    · simp [hi]
    · simp [hi]
  size_eq := by
    have hsize := h.size_eq
    rw [live_insert]
    unfold insert
    cases hf : m.free with
    | nil =>
      rw [hf] at hsize
      simpa using hsize
    | cons j rest =>
      rw [hf, List.length_cons] at hsize
      simp only [Array.size_setIfInBounds]
      omega
  size_le := by
    have hle := h.size_le
    unfold insert
    cases hf : m.free with
    | nil => simpa using Nat.succ_le_of_lt (hroom hf)
    | cons j rest => simpa using hle

/-- There are fewer values than indices as long as an index can name the next slot. -/
theorem live_lt {m : SlotMap α} (h : m.Valid) (hroom : m.free = [] → m.slots.size < 2 ^ 32) :
    m.live < 2 ^ 32 := by
  have hsize := h.size_eq
  have hle := h.size_le
  cases hf : m.free with
  | nil =>
    have hlt := hroom hf
    rw [hf, List.length_nil] at hsize
    omega
  | cons i rest =>
    rw [hf, List.length_cons] at hsize
    omega

/-! ### Erasure -/

/-- The table after the value under a live key has been taken out. -/
def erase (m : SlotMap α) (key : SlotKey) : SlotMap α where
  slots := m.slots.setIfInBounds key.index.toNat ⟨key.generation + 1, none⟩
  free := key.index :: m.free
  live := m.live - 1

theorem erase?_eq (m : SlotMap α) (key : SlotKey) :
    m.erase? key = (m.get? key).map fun a => (a, m.erase key) := rfl

@[simp] theorem live_erase (m : SlotMap α) (key : SlotKey) : (m.erase key).live = m.live - 1 := rfl

@[simp] theorem size_erase (m : SlotMap α) (key : SlotKey) :
    (m.erase key).slots.size = m.slots.size := by
  simp [erase]

theorem slot?_erase {m : SlotMap α} {key : SlotKey} {a : α} (hk : m.get? key = some a)
    (i : UInt32) :
    (m.erase key).slot? i =
      if i = key.index then some ⟨key.generation + 1, none⟩ else m.slot? i := by
  have hs := get?_eq_some_iff.mp hk
  have hlt : key.index.toNat < m.slots.size := (Array.getElem?_eq_some_iff.mp hs).choose
  by_cases hi : i = key.index
  · subst hi
    simp [slot?, erase, hlt]
  · have hne : key.index.toNat ≠ i.toNat := fun hc => hi (UInt32.toNat_inj.mp hc).symm
    simp [slot?, erase, hi, hne]

theorem get?_erase {m : SlotMap α} {key : SlotKey} {a : α} (hk : m.get? key = some a)
    (k : SlotKey) : (m.erase key).get? k = if k = key then none else m.get? k := by
  by_cases hi : k.index = key.index
  · have hafter : (m.erase key).get? k = none := by
      have hs : (m.erase key).slot? k.index = some ⟨key.generation + 1, none⟩ := by
        rw [slot?_erase hk, if_pos hi]
      exact get?_eq_none_of_entry hs rfl
    rw [hafter]
    by_cases hkk : k = key
    · rw [if_pos hkk]
    · rw [if_neg hkk]
      symm
      -- the key is of another generation than the one erased, so it found nothing before either
      have hg : key.generation ≠ k.generation := by
        intro hg
        exact hkk (SlotKey.eq_of_parts hi hg.symm)
      simp [get?, hi, get?_eq_some_iff.mp hk, hg]
  · have hkk : k ≠ key := fun hc => hi (congrArg SlotKey.index hc)
    simp [get?, slot?_erase hk, hi, hkk]

/-- There is something to count down when a live key is erased. -/
theorem live_pos {m : SlotMap α} (h : m.Valid) {key : SlotKey} {a : α}
    (hk : m.get? key = some a) : 0 < m.live := by
  have hs := get?_eq_some_iff.mp hk
  have hlt : key.index.toNat < m.slots.size := (Array.getElem?_eq_some_iff.mp hs).choose
  by_contra hlive
  -- all slots would be on the free list, that of the key among them
  have hlen : m.free.length = m.slots.size := by
    have := h.size_eq
    omega
  have hsub : (m.free.map UInt32.toNat) ⊆ List.range m.slots.size := by
    intro n hn
    obtain ⟨i, hi, rfl⟩ := List.mem_map.mp hn
    obtain ⟨slot, hs, -⟩ := (h.mem_free_iff i).mp hi
    exact List.mem_range.mpr (Array.getElem?_eq_some_iff.mp hs).choose
  have hnodup : (m.free.map UInt32.toNat).Nodup :=
    h.free_nodup.map fun _ _ hc => UInt32.toNat_inj.mp hc
  have hperm : (m.free.map UInt32.toNat).Perm (List.range m.slots.size) :=
    (List.subperm_of_subset hnodup hsub).perm_of_length_le (by simp [hlen])
  have hmem : key.index ∈ m.free := by
    obtain ⟨i, hi, hik⟩ := List.mem_map.mp (hperm.mem_iff.mpr (List.mem_range.mpr hlt))
    rwa [← UInt32.toNat_inj.mp hik]
  obtain ⟨slot, hs', he⟩ := (h.mem_free_iff _).mp hmem
  rw [hs] at hs'
  obtain rfl := Option.some.inj hs'
  exact absurd he (by simp)

theorem erase_valid {m : SlotMap α} (h : m.Valid) {key : SlotKey} {a : α}
    (hk : m.get? key = some a) : (m.erase key).Valid where
  free_nodup := by
    refine List.nodup_cons.mpr ⟨?_, h.free_nodup⟩
    intro hmem
    obtain ⟨slot, hs, he⟩ := (h.mem_free_iff _).mp hmem
    rw [get?_eq_none_of_entry hs he] at hk
    exact absurd hk (by simp)
  mem_free_iff := by
    intro i
    rw [slot?_erase hk]
    by_cases hi : i = key.index
    · simp [erase, hi]
    · simp [erase, hi, h.mem_free_iff]
  size_eq := by
    have hpos := live_pos h hk
    have hsize := h.size_eq
    simp only [erase, List.length_cons, Array.size_setIfInBounds]
    omega
  size_le := by
    rw [size_erase]
    exact h.size_le

/-! ### The listing -/

theorem mem_toList_iff {m : SlotMap α} (h : m.Valid) {k : SlotKey} {a : α} :
    (k, a) ∈ m.toList ↔ m.get? k = some a := by
  rw [get?_eq_some_iff]
  have hle := h.size_le
  simp only [toList, List.mem_filterMap, Option.map_eq_some_iff, Prod.mk.injEq, Prod.exists]
  constructor
  · rintro ⟨slot, i, hmem, b, he, rfl, rfl⟩
    obtain ⟨hlt, hslot⟩ := List.mem_zipIdx' hmem
    have hi : (UInt32.ofNat i).toNat = i := by
      rw [UInt32.toNat_ofNat']
      exact Nat.mod_eq_of_lt (Nat.lt_of_lt_of_le (by simpa using hlt) hle)
    rw [← he]
    simp only [slot?, hi]
    simp only [Array.length_toList] at hlt
    simp [hlt, hslot]
  · intro hs
    obtain ⟨hlt, hget⟩ := Array.getElem?_eq_some_iff.mp hs
    refine ⟨⟨k.generation, some a⟩, k.index.toNat, ?_, a, rfl, ?_, rfl⟩
    · rw [List.mem_zipIdx_iff_getElem?]
      simpa [slot?] using hs
    · simp

/-- The listing goes through the slots in their order. -/
theorem pairwise_keys (m : SlotMap α) (h : m.Valid) :
    m.keys.Pairwise fun k k' => k.index.toNat < k'.index.toNat := by
  have hle := h.size_le
  -- places in the table are below 2 ^ 32, so they are in the same order as their indices
  have hzip : m.slots.toList.zipIdx.Pairwise fun p q => p.2 < q.2 ∧ q.2 < 2 ^ 32 := by
    rw [List.pairwise_iff_getElem]
    intro i j hi hj hij
    have hj' : j < m.slots.size := by simpa using hj
    simp
    omega
  unfold keys toList
  rw [List.pairwise_map]
  refine List.Pairwise.filterMap _ ?_ hzip
  rintro ⟨s, i⟩ ⟨t, j⟩ ⟨hij, hj⟩ b hb c hc
  obtain ⟨x, -, rfl⟩ := Option.map_eq_some_iff.mp hb
  obtain ⟨y, -, rfl⟩ := Option.map_eq_some_iff.mp hc
  simp only [UInt32.toNat_ofNat'] at *
  rw [Nat.mod_eq_of_lt hj, Nat.mod_eq_of_lt (Nat.lt_trans hij hj)]
  exact hij

theorem nodup_keys {m : SlotMap α} (h : m.Valid) : m.keys.Nodup :=
  (pairwise_keys m h).imp fun hlt hc => absurd hlt (by simp [hc])

theorem mem_keys_iff {m : SlotMap α} (h : m.Valid) {k : SlotKey} :
    k ∈ m.keys ↔ ∃ a, m.get? k = some a := by
  simp only [keys, List.mem_map, Prod.exists, exists_and_right, exists_eq_right]
  exact exists_congr fun a => mem_toList_iff h

end SlotMap

end EdgeWait
