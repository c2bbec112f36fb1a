/-
The keys that are issued for registrations.

The generation of a slot counts how often it has been used, up to the wrap of its word.  So the keys
of one slot are issued with the generations 0, 1, 2, … in this order.

* `tracking_numbered` — the roster is in the order in which its keys have been issued (`Numbered`);
* `tracking_counted` — this is kept by registrations and removals (`Counted`);
* `Counted.nodup` — no key is issued twice as long as no slot has been used more than 2^32 times.
-/
import EdgeWait.Proofs.Registering

namespace EdgeWait

variable {N σ η : Type}

/-! ### The order of the roster -/

/-- The number of a holding is the place of its key among the keys issued, and the roster is in the
order of these numbers. -/
structure Numbered (L : List (Holding σ η)) (_ : Arena σ) (_ : N) (issued : List RegistrationKey) :
    Prop where
  sorted : L.Pairwise fun e f => e.number < f.number
  issued_at : ∀ e ∈ L, issued[e.number]? = some e.key

theorem Numbered.number_lt {L : List (Holding σ η)} {arena : Arena σ} {native : N}
    {issued : List RegistrationKey} (h : Numbered L arena native issued) {e : Holding σ η}
    (he : e ∈ L) : e.number < issued.length :=
  (List.getElem?_eq_some_iff.mp (h.issued_at e he)).choose

theorem tracking_numbered [NativeLayer N σ η] :
    Tracking (Numbered (N := N) (σ := σ) (η := η)) where
  opened := by
    intro L arena native issued key handle native' arena' r h _ _ _ _ _
    constructor
    · rw [List.pairwise_append]
      refine ⟨h.sorted, List.pairwise_singleton _ _, fun e he f hf => ?_⟩
      rw [List.mem_singleton.mp hf]
      exact h.number_lt he
    · intro e he
      rcases List.mem_append.mp he with he | he
      · rw [List.getElem?_append_left (h.number_lt he)]
        exact h.issued_at e he
      · rw [List.mem_singleton.mp he, List.getElem?_concat_length]
  closed := by
    intro L arena native issued native' e h _ _ _ _
    exact ⟨h.sorted.filter _, fun f hf => h.issued_at f (List.mem_of_mem_filter hf)⟩

/-- A relation `I`, and what has come to the keys `base` and the roster `L₀` since: keys have been
issued, and the holdings that are not of `L₀` bear later numbers. -/
def Since (base : List RegistrationKey) (L₀ : List (Holding σ η))
    (I : List (Holding σ η) → Arena σ → N → List RegistrationKey → Prop) (L : List (Holding σ η))
    (arena : Arena σ) (native : N) (issued : List RegistrationKey) : Prop :=
  I L arena native issued ∧ base <+: issued ∧ ∀ e ∈ L, e ∈ L₀ ∨ base.length ≤ e.number

theorem tracking_since [NativeLayer N σ η]
    {I : List (Holding σ η) → Arena σ → N → List RegistrationKey → Prop} (hI : Tracking I)
    (base : List RegistrationKey) (L₀ : List (Holding σ η)) : Tracking (Since base L₀ I) where
  opened := by
    intro L arena native issued key handle native' arena' r h harena hroom hfresh hinsert hsubscribe
    obtain ⟨h, hbase, hnumbers⟩ := h
    refine ⟨hI.opened h harena hroom hfresh hinsert hsubscribe,
      hbase.trans (List.prefix_append _ _), ?_⟩
    intro e he
    rcases List.mem_append.mp he with he | he
    · exact hnumbers e he
    · rw [List.mem_singleton.mp he]
      exact .inr hbase.length_le
  closed := by
    intro L arena native issued native' e h hkeys he hget hunsubscribe
    obtain ⟨h, hbase, hnumbers⟩ := h
    exact ⟨hI.closed h hkeys he hget hunsubscribe, hbase,
      fun f hf => hnumbers f (List.mem_of_mem_filter hf)⟩

namespace Bench

variable {T : Type} {I : List (Holding σ η) → Arena σ → N → List RegistrationKey → Prop}

/-- Nothing has come yet. -/
theorem Tracked.since {b : Bench N T σ η} {L : List (Holding σ η)} (h : b.Tracked I L) :
    b.Tracked (Since b.log.issued L I) L :=
  ⟨h.roster, h.extra, List.prefix_rfl, fun _ he => .inl he⟩

theorem Tracked.of_since {b : Bench N T σ η} {base : List RegistrationKey}
    {L L₀ : List (Holding σ η)} (h : b.Tracked (Since base L₀ I) L) : b.Tracked I L :=
  ⟨h.roster, h.extra.1⟩

/-- The holdings that a context has made since bear later numbers. -/
theorem Tracked.le_number_of_new {b b' : Bench N T σ η} {L new : List (Holding σ η)}
    (h : b'.Tracked (Since b.log.issued L I) (L ++ new)) :
    ∀ e ∈ new, b.log.issued.length ≤ e.number := by
  intro e he
  rcases h.extra.2.2 e (List.mem_append_right L he) with hold | hlater
  · have hdisjoint := h.roster.keys_nodup
    rw [List.map_append, List.nodup_append'] at hdisjoint
    exact absurd (List.mem_map_of_mem he) (hdisjoint.2.2 (List.mem_map_of_mem hold))
  · exact hlater

end Bench

/-! ### The keys of one slot -/

/-- The keys issued for one slot. -/
def keysOf (i : UInt32) (issued : List RegistrationKey) : List RegistrationKey :=
  issued.filter (·.index = i)

/-- The generation of each slot tells how many keys have been issued for it, and these keys bear the
generations that the slot has been through. -/
def Counted (_ : List (Holding σ η)) (arena : Arena σ) (_ : N) (issued : List RegistrationKey) :
    Prop :=
  ∀ i, (keysOf i issued).map (·.generation) =
      (List.range (keysOf i issued).length).map UInt32.ofNat ∧
    (arena.slot? i = none → keysOf i issued = []) ∧
    ∀ slot, arena.slot? i = some slot →
      slot.generation + (if slot.entry.isSome then 1 else 0) =
        UInt32.ofNat (keysOf i issued).length

theorem counted_start (native : N) : Counted ([] : List (Holding σ η)) .empty native [] := by
  intro i
  refine ⟨rfl, fun _ => rfl, ?_⟩
  simp [SlotMap.slot?, SlotMap.empty]

theorem keysOf_concat_self (issued : List RegistrationKey) (key : RegistrationKey) :
    keysOf key.index (issued ++ [key]) = keysOf key.index issued ++ [key] := by
  simp [keysOf, List.filter_append]

theorem keysOf_concat_of_ne {i : UInt32} {issued : List RegistrationKey} {key : RegistrationKey}
    (h : i ≠ key.index) : keysOf i (issued ++ [key]) = keysOf i issued := by
  simp [keysOf, List.filter_append, Ne.symm h]

/-- The next key of a slot bears the number of keys issued for it before. -/
theorem Counted.generation_insert {L : List (Holding σ η)} {arena : Arena σ} {native : N}
    {issued : List RegistrationKey} (h : Counted L arena native issued) (harena : arena.Valid)
    (hroom : arena.free = [] → arena.slots.size < 2 ^ 32) (r : Registration σ) :
    (arena.insert r).1.generation =
      UInt32.ofNat (keysOf (arena.insert r).1.index issued).length := by
  obtain ⟨-, habsent, hpresent⟩ := h (arena.insert r).1.index
  rcases SlotMap.slot?_insert_key harena hroom r with hslot | ⟨hslot, hzero⟩
  · have hgeneration := hpresent _ hslot
    simpa using hgeneration
  · rw [habsent hslot, hzero]
    rfl

theorem tracking_counted [NativeLayer N σ η] : Tracking (Counted (N := N) (σ := σ) (η := η)) where
  opened := by
    intro L arena native issued key handle native' arena' r h harena hroom _ hinsert _ i
    obtain rfl : key = (arena.insert r).1 := congrArg Prod.fst hinsert
    obtain rfl : arena' = (arena.insert r).2 := congrArg Prod.snd hinsert
    rw [SlotMap.slot?_insert harena hroom]
    -- only the slot that is filled has one key more
    by_cases hi : i = (arena.insert r).1.index
    · subst hi
      have hgeneration := h.generation_insert harena hroom r
      rw [keysOf_concat_self, if_pos rfl, List.map_append, List.length_append,
        List.length_singleton, List.range_succ, List.map_append, (h _).1, List.map_singleton,
        List.map_singleton, hgeneration]
      refine ⟨rfl, by simp, ?_⟩
      rintro slot ⟨⟩
      rw [UInt32.ofNat_add]
      rfl
    · rw [keysOf_concat_of_ne hi, if_neg hi]
      exact h i
  closed := by
    intro L arena native issued native' e h _ _ hget _ i
    obtain ⟨hkeys, habsent, hpresent⟩ := h i
    rw [SlotMap.slot?_erase hget]
    -- the slot that is freed goes on to a generation for which no key has been issued
    by_cases hi : i = e.key.index
    · subst hi
      have hgeneration := hpresent _ (SlotMap.get?_eq_some_iff.mp hget)
      rw [if_pos rfl]
      refine ⟨hkeys, by simp, ?_⟩
      rintro slot ⟨⟩
      simpa using hgeneration
    · rw [if_neg hi]
      exact ⟨hkeys, habsent, hpresent⟩

/-- **No key is issued twice**, unless a slot has been used more than 2^32 times. -/
theorem Counted.nodup {L : List (Holding σ η)} {arena : Arena σ} {native : N}
    {issued : List RegistrationKey} (h : Counted L arena native issued)
    (hslots : ∀ i, (keysOf i issued).length ≤ 2 ^ 32) : issued.Nodup := by
  refine List.nodup_iff_count_le_one.mpr fun key => ?_
  have hgenerations : ((keysOf key.index issued).map (·.generation)).Nodup := by
    rw [(h key.index).1]
    -- up to 2 ^ 32 generations there is no wrap
    refine List.Nodup.map_on ?_ List.nodup_range
    intro m hm n hn heq
    have hle := hslots key.index
    rw [List.mem_range] at hm hn
    have htoNat := congrArg UInt32.toNat heq
    rw [UInt32.toNat_ofNat', UInt32.toNat_ofNat'] at htoNat
    omega
  calc issued.count key
      = (keysOf key.index issued).count key := (List.count_filter (by simp)).symm
    _ ≤ ((keysOf key.index issued).map (·.generation)).count key.generation :=
        List.count_le_count_map
    _ ≤ 1 := List.nodup_iff_count_le_one.mp hgenerations _

end EdgeWait
