/-
How many slots a table has.

A table makes a slot only when every slot it has holds a value, and it never gives one up.  So it
has as many slots as it has ever held values at a time.

* `insert_tidy`, `erase_tidy` — every slot holds a value, or is on the free list once (`Tidy`);
* `size_insert_of_tidy` — an insertion makes a slot when there are more values than ever before;
* `values_insert_perm`, `values_erase_perm` — the values that the slots hold.

Design notes: `Valid` asks for an index that can name every slot, since its subject is what a key
finds.  Nothing here does.  An index that has been cut to 32 bits names an earlier slot, and an
erasure is made only where a key has found a value; so a table stays tidy at any size.
-/
import EdgeWait.Proofs.Slots

namespace EdgeWait

/-- The largest of some numbers. -/
def peak (ns : List Nat) : Nat := ns.foldr max 0

@[simp] theorem peak_nil : peak [] = 0 := rfl

@[simp] theorem peak_cons (n : Nat) (ns : List Nat) : peak (n :: ns) = max n (peak ns) := rfl

@[simp] theorem peak_append (ms ns : List Nat) : peak (ms ++ ns) = max (peak ms) (peak ns) := by
  induction ms with
  | nil => simp
  | cons m rest ih => rw [List.cons_append, peak_cons, ih, peak_cons, Nat.max_assoc]

/-- To write a place of a list takes out what was read off it, and puts in what is read off it
now. -/
theorem filterMap_set_perm {α β : Type} (f : α → Option β) (a : α) {x : α} {l : List α} :
    ∀ {i : Nat}, l[i]? = some x →
      ((f x).toList ++ (l.set i a).filterMap f).Perm ((f a).toList ++ l.filterMap f) := by
  have hcons : ∀ x rest, (x :: rest).filterMap f = (f x).toList ++ rest.filterMap f := by
    intro x rest
    cases hx : f x <;> simp [hx]
  induction l with
  | nil => exact fun hx => absurd hx (by simp)
  | cons y rest ih =>
    intro i hx
    cases i with
    | zero =>
      obtain rfl := Option.some.inj hx
      rw [List.set_cons_zero, hcons, hcons]
      exact List.perm_append_comm_assoc _ _ _
    | succ i =>
      rw [List.set_cons_succ, hcons, hcons]
      have hrest := (ih hx).append_left (f y).toList
      exact (List.perm_append_comm_assoc _ _ _).trans
        (hrest.trans (List.perm_append_comm_assoc _ _ _))

namespace SlotMap

variable {α : Type} {m : SlotMap α}

/-- The values held, in the order of the slots. -/
def values (m : SlotMap α) : List α := m.slots.toList.filterMap (·.entry)

/-- Every slot holds a value or is on the free list, where it is once; and the values are
counted. -/
structure Tidy (m : SlotMap α) : Prop where
  count_free : ∀ i slot, m.slots[i]? = some slot →
    (m.free.map UInt32.toNat).count i = if slot.entry.isSome then 0 else 1
  free_lt : ∀ i ∈ m.free, i.toNat < m.slots.size
  live_eq : m.live = m.slots.countP (·.entry.isSome)
  size_eq : m.live + m.free.length = m.slots.size

theorem tidy_empty : (empty : SlotMap α).Tidy where
  count_free := by simp [empty]
  free_lt := by simp [empty]
  live_eq := rfl
  size_eq := rfl

theorem length_values (m : SlotMap α) :
    m.values.length = m.slots.countP (·.entry.isSome) := by
  rw [values, List.length_filterMap_eq_countP, Array.countP_toList]

theorem Tidy.live_eq_length (h : m.Tidy) : m.live = m.values.length := by
  rw [length_values, h.live_eq]

theorem Tidy.live_le (h : m.Tidy) : m.live ≤ m.slots.size := by
  rw [← h.size_eq]
  exact Nat.le_add_right _ _

/-! ### Insertion -/

/-- The slot freed last is empty, and it is on the free list once. -/
theorem Tidy.of_free_eq_cons (h : m.Tidy) {j : UInt32} {rest : List UInt32}
    (hfree : m.free = j :: rest) :
    ∃ generation, m.slots[j.toNat]? = some ⟨generation, none⟩ ∧
      (rest.map UInt32.toNat).count j.toNat = 0 := by
  obtain ⟨⟨generation, entry⟩, hslot⟩ : ∃ slot, m.slots[j.toNat]? = some slot :=
    ⟨_, Array.getElem?_eq_getElem (h.free_lt j (by rw [hfree]; exact List.mem_cons_self))⟩
  have hcount := h.count_free j.toNat _ hslot
  rw [hfree, List.map_cons, List.count_cons_self] at hcount
  cases entry with
  | some a => simp at hcount
  | none => exact ⟨generation, hslot, by simpa using hcount⟩

/-- **The values** after an insertion. -/
theorem values_insert_perm (h : m.Tidy) (a : α) : (m.insert a).2.values.Perm (a :: m.values) := by
  unfold insert
  cases hfree : m.free with
  | nil => simp [values]
  | cons j rest =>
    obtain ⟨generation, hslot, -⟩ := h.of_free_eq_cons hfree
    have hset := filterMap_set_perm (·.entry) (⟨generation, some a⟩ : Slot α)
      (Array.getElem?_toList.trans hslot)
    simpa [values, slot?, hslot] using hset

/-- **An insertion** fills an empty slot, or a new one. -/
theorem insert_tidy (h : m.Tidy) (a : α) : (m.insert a).2.Tidy where
  count_free := by
    intro i slot hslot
    unfold insert at hslot ⊢
    cases hfree : m.free with
    | nil =>
      simp only [hfree, Array.getElem?_push] at hslot
      split at hslot
      · obtain rfl := Option.some.inj hslot
        simp
      · have hcount := h.count_free i slot hslot
        rwa [hfree] at hcount
    -- the slot `j` leaves the free list and is filled; it was on the list once
    | cons j rest =>
      obtain ⟨generation, hempty, hcount⟩ := h.of_free_eq_cons hfree
      simp only [hfree, Array.getElem?_setIfInBounds] at hslot
      split at hslot
      case isTrue hji =>
        subst hji
        rw [hcount]
        split at hslot
        · obtain rfl := Option.some.inj hslot
          rfl
        · cases hslot
      case isFalse hji =>
        have hbefore := h.count_free i slot hslot
        rwa [hfree, List.map_cons, List.count_cons_of_ne hji] at hbefore
  free_lt := by
    intro i hi
    -- what is free after the insertion was free before, and no slot is lost
    have hgrows : m.slots.size ≤ (m.insert a).2.slots.size := by
      rw [size_insert]
      exact Nat.le_add_right _ _
    refine Nat.lt_of_lt_of_le (h.free_lt i ?_) hgrows
    unfold insert at hi
    cases hfree : m.free with
    | nil =>
      rw [hfree] at hi
      cases hi
    | cons j rest =>
      rw [hfree] at hi
      exact List.mem_cons_of_mem j hi
  live_eq := by
    rw [live_insert, ← length_values, (values_insert_perm h a).length_eq, List.length_cons,
      h.live_eq_length]
  size_eq := by
    have hsize := h.size_eq
    rw [live_insert, size_insert]
    unfold insert
    cases hfree : m.free with
    | nil =>
      rw [hfree] at hsize
      simpa using hsize
    | cons j rest =>
      rw [hfree, List.length_cons] at hsize
      simp only [reduceCtorEq, if_false]
      omega

/-- **A slot is made** when there are more values than there have ever been slots. -/
theorem size_insert_of_tidy (h : m.Tidy) (a : α) :
    (m.insert a).2.slots.size = max m.slots.size (m.insert a).2.live := by
  have hsize := h.size_eq
  rw [size_insert, live_insert]
  cases hfree : m.free with
  | nil =>
    rw [hfree, List.length_nil] at hsize
    rw [if_pos rfl]
    omega
  | cons j rest =>
    rw [hfree, List.length_cons] at hsize
    rw [if_neg (List.cons_ne_nil j rest)]
    omega

/-! ### Erasure -/

/-- **The values** after an erasure. -/
theorem values_erase_perm {key : SlotKey} {a : α} (hkey : m.get? key = some a) :
    m.values.Perm (a :: (m.erase key).values) := by
  have hset := filterMap_set_perm (·.entry) (⟨key.generation + 1, none⟩ : Slot α)
    (Array.getElem?_toList.trans (get?_eq_some_iff.mp hkey))
  simpa [values, erase] using hset.symm

theorem Tidy.live_erase_add_one (h : m.Tidy) {key : SlotKey} {a : α}
    (hkey : m.get? key = some a) : (m.erase key).live + 1 = m.live := by
  have hlive := h.live_eq_length
  rw [(values_erase_perm hkey).length_eq, List.length_cons] at hlive
  rw [live_erase]
  omega

/-- **An erasure** puts the slot of the value on the free list. -/
theorem erase_tidy (h : m.Tidy) {key : SlotKey} {a : α} (hkey : m.get? key = some a) :
    (m.erase key).Tidy where
  count_free := by
    intro i slot hslot
    have hheld : m.slots[key.index.toNat]? = some ⟨key.generation, some a⟩ :=
      get?_eq_some_iff.mp hkey
    simp only [erase, Array.getElem?_setIfInBounds] at hslot ⊢
    rw [List.map_cons]
    split at hslot
    -- the slot held a value, so it was not on the free list
    case isTrue hi =>
      subst hi
      rw [List.count_cons_self, h.count_free _ _ hheld]
      split at hslot
      · obtain rfl := Option.some.inj hslot
        rfl
      · cases hslot
    case isFalse hi =>
      rw [List.count_cons_of_ne hi]
      exact h.count_free i slot hslot
  free_lt := by
    intro i hi
    rw [size_erase]
    rcases List.mem_cons.mp hi with rfl | hi
    · exact (Array.getElem?_eq_some_iff.mp (get?_eq_some_iff.mp hkey)).choose
    · exact h.free_lt i hi
  live_eq := by
    rw [live_erase, ← length_values, h.live_eq_length, (values_erase_perm hkey).length_eq,
      List.length_cons, Nat.add_sub_cancel]
  size_eq := by
    have hsize := h.size_eq
    have hlive := h.live_erase_add_one hkey
    rw [size_erase, ← hsize, ← hlive, erase, List.length_cons]
    omega

end SlotMap

end EdgeWait
