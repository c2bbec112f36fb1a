/-
The roster of a context: its live registrations in the order in which they were made.

A registration is kept in three places, the arena, the pool and the table of native handles.  The
relation `Subscriptions.Roster s L` says that the three agree on one list `L` of holdings, each of
them a key, a native handle and a registration.

* `roster_ofPool` — a new context has the empty roster;
* `subscribe_spec` — to subscribe adds one holding at the end, or finds the pool empty;
* `unsubscribe_spec` — to unsubscribe takes out the holding of the key;
* `Roster.inUseCount` — as many ids are in use as there are live registrations.

Design notes: neither operation can end in a fault of its own while a roster exists.  The order of
the roster is not stored anywhere in the context; it is that of the native subscriptions.
-/
import EdgeWait.Subscriptions
import EdgeWait.Proofs.Pool
import EdgeWait.Proofs.Slots

namespace EdgeWait

/-- One live registration, with the key and the native handle that belong to it. -/
structure Holding (σ η : Type) where
  key : RegistrationKey
  handle : η
  registration : Registration σ
  /-- The number of registrations made before this one. -/
  number : Nat

namespace Subscriptions

variable {N σ η : Type}

/-- The three tables of a context agree on a list of holdings. -/
structure Roster (s : Subscriptions σ η) (L : List (Holding σ η)) : Prop where
  pool_valid : s.pool.Valid
  arena_valid : s.arena.Valid
  resolves : ∀ k r, s.arena.get? k = some r ↔ ∃ e ∈ L, e.key = k ∧ e.registration = r
  ids_nodup : (L.map (·.registration.id)).Nodup
  inUse_iff : ∀ id, s.pool.isInUse id = true ↔ ∃ e ∈ L, e.registration.id = id
  handle_iff : ∀ id h, s.handle? id = some h ↔ ∃ e ∈ L, e.registration.id = id ∧ e.handle = h
  rows : s.handles.size = s.pool.capacity
  live_eq : s.arena.live = L.length
  active : ∀ e ∈ L, e.registration.phase = .active
  sized : ∀ e ∈ L, 1 ≤ e.registration.tasks.length ∧ e.registration.tasks.length ≤ batchCapacity
  slots_le : s.arena.slots.size ≤ s.pool.capacity

theorem roster_ofPool {p : IdPool} (hp : p.Valid) (hfree : ∀ id, p.isInUse id = false) :
    (ofPool p : Subscriptions σ η).Roster [] where
  pool_valid := hp
  arena_valid := SlotMap.valid_empty
  resolves := by simp [ofPool]
  ids_nodup := List.nodup_nil
  inUse_iff := by simp [ofPool, hfree]
  handle_iff := by
    intro id h
    simp only [handle?, ofPool, Array.getElem?_replicate]
    split <;> simp
  rows := by simp [ofPool]
  live_eq := rfl
  active := by simp
  sized := by simp
  slots_le := Nat.zero_le _

namespace Roster

variable {s : Subscriptions σ η} {L : List (Holding σ η)}

theorem get?_of_mem (h : s.Roster L) {e : Holding σ η} (he : e ∈ L) :
    s.arena.get? e.key = some e.registration :=
  (h.resolves _ _).mpr ⟨e, he, rfl, rfl⟩

/-- A holding is known by its id. -/
theorem eq_of_id (h : s.Roster L) {e f : Holding σ η} (he : e ∈ L) (hf : f ∈ L)
    (hid : e.registration.id = f.registration.id) : e = f :=
  List.inj_on_of_nodup_map h.ids_nodup he hf hid

/-- A holding is known by its key. -/
theorem eq_of_key (h : s.Roster L) {e f : Holding σ η} (he : e ∈ L) (hf : f ∈ L)
    (hkey : e.key = f.key) : e = f := by
  have hreg : some e.registration = some f.registration := by
    rw [← h.get?_of_mem he, ← h.get?_of_mem hf, hkey]
  exact h.eq_of_id he hf (congrArg _ (Option.some.inj hreg))

theorem keys_nodup (h : s.Roster L) : (L.map (·.key)).Nodup :=
  List.Nodup.map_on (fun _ he _ hf hkey => h.eq_of_key he hf hkey) (h.ids_nodup.of_map _)

theorem get?_eq_none_iff (h : s.Roster L) {k : RegistrationKey} :
    s.arena.get? k = none ↔ ∀ e ∈ L, e.key ≠ k := by
  constructor
  · rintro hk e he rfl
    rw [h.get?_of_mem he] at hk
    exact absurd hk (by simp)
  · intro hk
    by_contra hne
    obtain ⟨r, hr⟩ := Option.ne_none_iff_exists'.mp hne
    obtain ⟨e, he, hkey, -⟩ := (h.resolves _ _).mp hr
    exact hk e he hkey

theorem available_add_length (h : s.Roster L) :
    s.pool.available + L.length = s.pool.capacity := by
  have hused : ∀ id, id ∈ L.map (·.registration.id) ↔ s.pool.isInUse id = true := by
    intro id
    rw [h.inUse_iff, List.mem_map]
  simpa using IdPool.available_add_length h.pool_valid h.ids_nodup hused

/-- As many ids are in use as there are live registrations. -/
theorem inUseCount (h : s.Roster L) : s.pool.inUseCount = s.arena.live := by
  have hcount := h.available_add_length
  rw [IdPool.inUseCount, h.live_eq]
  omega

/-- There are no more slots than the pool has ids, so an index can name the next one. -/
theorem size_lt (h : s.Roster L) (hfree : s.arena.free = []) : s.arena.slots.size < 2 ^ 32 := by
  have hsize := h.arena_valid.size_eq
  have hcount := h.available_add_length
  have hcap := h.pool_valid.capacity_lt
  rw [hfree, h.live_eq, List.length_nil] at hsize
  omega

theorem mem_keys_iff (h : s.Roster L) {k : RegistrationKey} :
    k ∈ s.arena.keys ↔ ∃ e ∈ L, e.key = k := by
  rw [SlotMap.mem_keys_iff h.arena_valid]
  constructor
  · rintro ⟨r, hr⟩
    obtain ⟨e, he, hkey, -⟩ := (h.resolves _ _).mp hr
    exact ⟨e, he, hkey⟩
  · rintro ⟨e, he, rfl⟩
    exact ⟨_, h.get?_of_mem he⟩

theorem length_keys (h : s.Roster L) : s.arena.keys.length = L.length := by
  have hperm : s.arena.keys.Perm (L.map (·.key)) := by
    refine (List.perm_ext_iff_of_nodup (SlotMap.nodup_keys h.arena_valid) h.keys_nodup).mpr ?_
    intro k
    rw [h.mem_keys_iff, List.mem_map]
  simpa using hperm.length_eq

/-- The roster has the live registrations, each of them once. -/
theorem toList_perm (h : s.Roster L) :
    s.arena.toList.Perm (L.map fun e => (e.key, e.registration)) := by
  have hkeys : s.arena.toList.Nodup := List.Nodup.of_map Prod.fst (SlotMap.nodup_keys h.arena_valid)
  have hlist : (L.map fun e => (e.key, e.registration)).Nodup := by
    refine List.Nodup.of_map Prod.fst ?_
    rw [List.map_map]
    exact h.keys_nodup
  refine (List.perm_ext_iff_of_nodup hkeys hlist).mpr ?_
  rintro ⟨k, r⟩
  rw [SlotMap.mem_toList_iff h.arena_valid, h.resolves, List.mem_map]
  simp only [Prod.mk.injEq]

end Roster

/-! ### Subscribing -/

theorem make_of_sized (id : CallbackId) (signal : σ) (edge : Edge) {tasks : List TaskId}
    (mode : Mode) (hsize : 1 ≤ tasks.length ∧ tasks.length ≤ batchCapacity) :
    Registration.make id signal edge tasks mode = .ok ⟨id, signal, edge, tasks, mode, .active⟩ := by
  rw [Registration.make, if_pos hsize]

/-- The rows of the table of handles after one of them has been written. -/
theorem join_set {handles : Array (Option η)} {id : CallbackId} (hid : id.index < handles.size)
    (v : Option η) (i : CallbackId) :
    (handles.setIfInBounds id.index v)[i.index]?.join =
      if i = id then v else handles[i.index]?.join := by
  by_cases hi : i = id
  · subst hi
    simp [hid]
  · have hne : id.index ≠ i.index := fun hc => hi (CallbackId.index_inj hc).symm
    simp [hi, hne]

/-- The arena with one more registration resolves the keys of one more holding. -/
theorem Roster.resolves_add {s : Subscriptions σ η} {L : List (Holding σ η)} (h : s.Roster L)
    (r : Registration σ) (handle : η) (number : Nat) (k : RegistrationKey) (r' : Registration σ) :
    (s.arena.insert r).2.get? k = some r' ↔
      ∃ e ∈ L ++ [⟨(s.arena.insert r).1, handle, r, number⟩], e.key = k ∧ e.registration = r' := by
  have hkey := SlotMap.get?_insert_key h.arena_valid h.size_lt r
  rw [SlotMap.get?_insert h.arena_valid h.size_lt]
  -- the arena issues no live key, so the new key is none of those in the roster
  by_cases hk : k = (s.arena.insert r).1
  · subst hk
    have hnotin : ∀ e ∈ L, e.key ≠ (s.arena.insert r).1 := by
      intro e he heq
      rw [← heq, h.get?_of_mem he] at hkey
      exact absurd hkey (by simp)
    rw [if_pos rfl]
    constructor
    · rintro ⟨⟩
      exact ⟨_, List.mem_append_right _ (List.mem_singleton.mpr rfl), rfl, rfl⟩
    · rintro ⟨e, he, heq, rfl⟩
      rcases List.mem_append.mp he with he | he
      · exact absurd heq (hnotin e he)
      · obtain rfl := List.mem_singleton.mp he
        rfl
  · rw [if_neg hk, h.resolves]
    constructor
    · rintro ⟨e, he, heq⟩
      exact ⟨e, List.mem_append_left _ he, heq⟩
    · rintro ⟨e, he, heq, hr⟩
      rcases List.mem_append.mp he with he | he
      · exact ⟨e, he, heq, hr⟩
      · obtain rfl := List.mem_singleton.mp he
        exact absurd heq.symm hk

/-- The table of handles with one more of them filed is that of one more holding. -/
theorem Roster.handle_iff_add {s : Subscriptions σ η} {L : List (Holding σ η)} (h : s.Roster L)
    {r : Registration σ} (hnew : ∀ e ∈ L, e.registration.id ≠ r.id)
    (hlt : r.id.index < s.handles.size) (key : RegistrationKey) (handle : η) (number : Nat)
    (id : CallbackId) (filed : η) :
    (s.handles.setIfInBounds r.id.index (some handle))[id.index]?.join = some filed ↔
      ∃ e ∈ L ++ [⟨key, handle, r, number⟩], e.registration.id = id ∧ e.handle = filed := by
  rw [join_set hlt]
  by_cases hid : id = r.id
  · subst hid
    have hnone : ¬ ∃ e ∈ L, e.registration.id = r.id ∧ e.handle = filed := by
      rintro ⟨e, he, hid, -⟩
      exact hnew e he hid
    simp only [if_pos, List.mem_append, List.mem_singleton, or_and_right, exists_or, hnone]
    simp
  · have hold := h.handle_iff id filed
    unfold handle? at hold
    rw [if_neg hid, hold]
    simp [or_and_right, exists_or, Ne.symm hid]

/-- A slot is made when every slot there is holds a registration, so there are ids enough. -/
theorem Roster.size_insert_le {s : Subscriptions σ η} {L : List (Holding σ η)} (h : s.Roster L)
    (r : Registration σ) (hfree : s.pool.free ≠ []) :
    (s.arena.insert r).2.slots.size ≤ s.pool.capacity := by
  have hcount := h.available_add_length
  have hlive := h.live_eq
  have hsize := h.arena_valid.size_eq
  have hslots := h.slots_le
  have hpos : 0 < s.pool.available := List.length_pos_iff.mpr hfree
  rw [SlotMap.size_insert]
  split
  · next hnone =>
    rw [hnone, List.length_nil] at hsize
    omega
  · omega

/-- A holding can be added when its key and its id are fresh. -/
theorem Roster.add {s : Subscriptions σ η} {L : List (Holding σ η)} (h : s.Roster L)
    {r : Registration σ} (hactive : r.phase = .active)
    (hsized : 1 ≤ r.tasks.length ∧ r.tasks.length ≤ batchCapacity) {pool : IdPool}
    (halloc : s.pool.alloc = .ok (some (r.id, pool))) (handle : η) (number : Nat) :
    Roster ⟨pool, (s.arena.insert r).2, s.handles.setIfInBounds r.id.index (some handle)⟩
      (L ++ [⟨(s.arena.insert r).1, handle, r, number⟩]) := by
  obtain ⟨-, hnone⟩ | ⟨id, p', hsome, hvalid, hstack, hcap, hunused, hflags⟩ :=
    IdPool.alloc_spec h.pool_valid
  · rw [hnone] at halloc
    cases halloc
  rw [halloc] at hsome
  obtain ⟨rfl, rfl⟩ : r.id = id ∧ pool = p' := by simpa using hsome
  have hnew : ∀ e ∈ L, e.registration.id ≠ r.id := by
    intro e he hid
    have hc := (h.inUse_iff r.id).mpr ⟨e, he, hid⟩
    rw [hunused] at hc
    exact absurd hc (by simp)
  have hlt : r.id.index < s.handles.size := by
    have hset := IdPool.isInUse_iff.mp ((hflags r.id).mpr (.inl rfl))
    rw [h.rows, ← hcap]
    exact (Array.getElem?_eq_some_iff.mp hset).choose
  have hfree : s.pool.free ≠ [] := by
    rw [hstack]
    exact List.cons_ne_nil _ _
  refine ⟨hvalid, SlotMap.insert_valid h.arena_valid h.size_lt r, h.resolves_add r handle number,
    ?_, ?_, h.handle_iff_add hnew hlt _ handle number, ?_, ?_, ?_, ?_, ?_⟩
  · -- no two holdings share an id
    rw [List.map_append, List.nodup_append']
    refine ⟨h.ids_nodup, by simp, ?_⟩
    intro i hi hmem
    obtain ⟨e, he, rfl⟩ := List.mem_map.mp hi
    exact hnew e he (by simpa using hmem)
  · -- the flags of the pool
    intro i
    rw [hflags, h.inUse_iff]
    simp [or_comm, eq_comm]
  · simp [h.rows, hcap]
  · simp [h.live_eq]
  · intro e he
    rcases List.mem_append.mp he with he | he
    · exact h.active e he
    · obtain rfl := List.mem_singleton.mp he
      exact hactive
  · intro e he
    rcases List.mem_append.mp he with he | he
    · exact h.sized e he
    · obtain rfl := List.mem_singleton.mp he
      exact hsized
  · rw [hcap]
    exact h.size_insert_le r hfree

/-- **To subscribe** finds the pool empty, or makes one registration under a fresh key and adds it
to the end of the roster. -/
theorem subscribe_spec [NativeLayer N σ η] [LogText η] {s : Subscriptions σ η}
    {L : List (Holding σ η)} (h : s.Roster L) (native : N) (signal : σ) (edge : Edge)
    {tasks : List TaskId} (mode : Mode)
    (hsize : 1 ≤ tasks.length ∧ tasks.length ≤ batchCapacity) :
    (s.pool.free = [] ∧ s.subscribe native signal edge tasks mode = .ok none) ∨
      ∃ opened r handle, s.subscribe native signal edge tasks mode = .ok (some opened) ∧
        r = ⟨opened.id, signal, edge, tasks, mode, .active⟩ ∧
        (opened.key, opened.subscriptions.arena) = s.arena.insert r ∧
        NativeLayer.subscribe native signal edge.condition opened.key = (handle, opened.native) ∧
        opened.subscriptions.pool.capacity = s.pool.capacity ∧
        s.pool.available = opened.subscriptions.pool.available + 1 ∧
        ∀ number, opened.subscriptions.Roster (L ++ [⟨opened.key, handle, r, number⟩]) := by
  obtain ⟨hfree, halloc⟩ | ⟨id, pool, halloc, -, hstack, hcap, hunused, -⟩ :=
    IdPool.alloc_spec h.pool_valid
  · exact .inl ⟨hfree, by simp [subscribe, halloc, bind, Except.bind, pure, Except.pure]⟩
  · right
    set r : Registration σ := ⟨id, signal, edge, tasks, mode, .active⟩ with hr
    -- a handle filed under the fresh id would belong to a holding that has this id in use
    have hhandle : s.handle? id = none := by
      by_contra hne
      obtain ⟨filed, hfiled⟩ := Option.ne_none_iff_exists'.mp hne
      obtain ⟨e, he, hid, -⟩ := (h.handle_iff id filed).mp hfiled
      have hc := (h.inUse_iff id).mpr ⟨e, he, hid⟩
      rw [hunused] at hc
      exact absurd hc (by simp)
    set key := (s.arena.insert r).1 with hkey
    set answer := NativeLayer.subscribe native signal edge.condition key with hanswer
    refine ⟨⟨key, id, ⟨pool, (s.arena.insert r).2,
      s.handles.setIfInBounds id.index (some answer.1)⟩, answer.2⟩, r, answer.1, ?_, rfl, rfl, rfl,
      hcap, ?_, h.add rfl hsize halloc answer.1⟩
    · simp [subscribe, halloc, make_of_sized id signal edge mode hsize,
        SlotMap.blockedSlot?_eq_none h.arena_valid, hhandle, bind, Except.bind, pure, Except.pure,
        ← hr, ← hkey, ← hanswer]
    · simp [IdPool.available, hstack]

/-! ### Unsubscribing -/

theorem unsubscribe_of_get?_eq_none [NativeLayer N σ η] {s : Subscriptions σ η} (native : N)
    {k : RegistrationKey} (hk : s.arena.get? k = none) :
    s.unsubscribe native k = .ok none := by
  simp [unsubscribe, SlotMap.erase?_eq, hk, pure, Except.pure]

omit N in
/-- A holding is the only one with its key. -/
theorem perm_filter_key {L : List (Holding σ η)} (hkeys : (L.map (·.key)).Nodup)
    {e : Holding σ η} (he : e ∈ L) : L.Perm (e :: L.filter (·.key ≠ e.key)) := by
  have hnodup := List.Nodup.of_map _ hkeys
  have hcons : (e :: L.filter (·.key ≠ e.key)).Nodup :=
    List.nodup_cons.mpr ⟨by simp, hnodup.filter _⟩
  refine (List.perm_ext_iff_of_nodup hnodup hcons).mpr fun f => ?_
  rw [List.mem_cons, List.mem_filter, decide_eq_true_iff]
  constructor
  · intro hf
    by_cases hkey : f.key = e.key
    · exact .inl (List.inj_on_of_nodup_map hkeys hf he hkey)
    · exact .inr ⟨hf, hkey⟩
  · rintro (rfl | ⟨hf, -⟩)
    · exact he
    · exact hf

omit N in
theorem length_filter_key {L : List (Holding σ η)} (hkeys : (L.map (·.key)).Nodup)
    {e : Holding σ η} (he : e ∈ L) : L.length = (L.filter (·.key ≠ e.key)).length + 1 :=
  (perm_filter_key hkeys he).length_eq

/-- The arena without a registration resolves the keys of the other holdings. -/
theorem Roster.resolves_remove {s : Subscriptions σ η} {L : List (Holding σ η)} (h : s.Roster L)
    {e : Holding σ η} (he : e ∈ L) (k : RegistrationKey) (r : Registration σ) :
    (s.arena.erase e.key).get? k = some r ↔
      ∃ f ∈ L.filter (·.key ≠ e.key), f.key = k ∧ f.registration = r := by
  rw [SlotMap.get?_erase (h.get?_of_mem he)]
  by_cases hk : k = e.key
  · rw [if_pos hk]
    simp only [reduceCtorEq, false_iff]
    rintro ⟨f, hf, heq, -⟩
    exact of_decide_eq_true (List.mem_filter.mp hf).2 (heq.trans hk)
  · rw [if_neg hk, h.resolves]
    constructor
    · rintro ⟨f, hf, rfl, hr⟩
      exact ⟨f, List.mem_filter.mpr ⟨hf, decide_eq_true hk⟩, rfl, hr⟩
    · rintro ⟨f, hf, heq⟩
      exact ⟨f, List.mem_of_mem_filter hf, heq⟩

/-- The other holdings are those of another key, and those of another id. -/
theorem Roster.mem_filter_key_iff {s : Subscriptions σ η} {L : List (Holding σ η)}
    (h : s.Roster L) {e : Holding σ η} (he : e ∈ L) (f : Holding σ η) :
    f ∈ L.filter (·.key ≠ e.key) ↔ f ∈ L ∧ f.registration.id ≠ e.registration.id := by
  rw [List.mem_filter, decide_eq_true_iff]
  refine and_congr_right fun hf => not_congr ⟨fun hkey => ?_, fun hid => ?_⟩
  · rw [h.eq_of_key hf he hkey]
  · rw [h.eq_of_id hf he hid]

/-- The table of handles with a row cleared is that of the other holdings. -/
theorem Roster.handle_iff_remove {s : Subscriptions σ η} {L : List (Holding σ η)} (h : s.Roster L)
    {e : Holding σ η} (he : e ∈ L) (hlt : e.registration.id.index < s.handles.size)
    (id : CallbackId) (filed : η) :
    (s.handles.setIfInBounds e.registration.id.index none)[id.index]?.join = some filed ↔
      ∃ f ∈ L.filter (·.key ≠ e.key), f.registration.id = id ∧ f.handle = filed := by
  simp only [h.mem_filter_key_iff he]
  rw [join_set hlt]
  by_cases hid : id = e.registration.id
  · subst hid
    simp only [if_pos, reduceCtorEq, false_iff]
    rintro ⟨f, ⟨-, hne⟩, hid, -⟩
    exact hne hid
  · have hold := h.handle_iff id filed
    unfold handle? at hold
    rw [if_neg hid, hold]
    constructor
    · rintro ⟨f, hf, rfl, rfl⟩
      exact ⟨f, ⟨hf, hid⟩, rfl, rfl⟩
    · rintro ⟨f, ⟨hf, -⟩, rfl, rfl⟩
      exact ⟨f, hf, rfl, rfl⟩

/-- The tables without a holding. -/
theorem Roster.remove {s : Subscriptions σ η} {L : List (Holding σ η)} (h : s.Roster L)
    {e : Holding σ η} (he : e ∈ L) {pool : IdPool}
    (hrelease : s.pool.release e.registration.id = .ok pool) :
    Roster ⟨pool, s.arena.erase e.key, s.handles.setIfInBounds e.registration.id.index none⟩
      (L.filter (·.key ≠ e.key)) := by
  have hinUse : s.pool.isInUse e.registration.id = true := (h.inUse_iff _).mpr ⟨e, he, rfl⟩
  obtain ⟨p', hok, hvalid, -, hcap, hflags⟩ := IdPool.release_spec h.pool_valid hinUse
  rw [hrelease] at hok
  obtain rfl : pool = p' := by simpa using hok
  have hlt : e.registration.id.index < s.handles.size := by
    rw [h.rows]
    exact (Array.getElem?_eq_some_iff.mp (IdPool.isInUse_iff.mp hinUse)).choose
  refine ⟨hvalid, SlotMap.erase_valid h.arena_valid (h.get?_of_mem he), h.resolves_remove he,
    h.ids_nodup.sublist (List.filter_sublist.map _), ?_, h.handle_iff_remove he hlt, ?_, ?_, ?_, ?_,
    ?_⟩
  · -- the flags of the pool
    intro i
    simp only [h.mem_filter_key_iff he]
    rw [hflags, h.inUse_iff]
    constructor
    · rintro ⟨hi, f, hf, rfl⟩
      exact ⟨f, ⟨hf, hi⟩, rfl⟩
    · rintro ⟨f, ⟨hf, hi⟩, rfl⟩
      exact ⟨hi, f, hf, rfl⟩
  · simp [h.rows, hcap]
  · have hsplit := length_filter_key h.keys_nodup he
    rw [SlotMap.live_erase, h.live_eq]
    omega
  · exact fun f hf => h.active f (List.mem_filter.mp hf).1
  · exact fun f hf => h.sized f (List.mem_filter.mp hf).1
  · rw [SlotMap.size_erase, hcap]
    exact h.slots_le

/-- **To unsubscribe** ends the native subscription of the holding, frees its id and takes it out of
the roster.  Only the native layer can refuse. -/
theorem unsubscribe_spec [NativeLayer N σ η] {s : Subscriptions σ η} {L : List (Holding σ η)}
    (h : s.Roster L) (native : N) {e : Holding σ η} (he : e ∈ L) :
    ∃ s', s.unsubscribe native e.key = (NativeLayer.unsubscribe native e.handle).map
        (fun n => some ⟨e.registration.retire, s', n⟩) ∧
      s'.Roster (L.filter (·.key ≠ e.key)) ∧ s'.arena = s.arena.erase e.key ∧
      s'.pool.capacity = s.pool.capacity := by
  have hinUse : s.pool.isInUse e.registration.id = true := (h.inUse_iff _).mpr ⟨e, he, rfl⟩
  obtain ⟨pool, hrelease, -, -, hcap, -⟩ := IdPool.release_spec h.pool_valid hinUse
  have hhandle : s.handle? e.registration.id = some e.handle :=
    (h.handle_iff _ _).mpr ⟨e, he, rfl, rfl⟩
  refine ⟨⟨pool, s.arena.erase e.key, s.handles.setIfInBounds e.registration.id.index none⟩, ?_,
    h.remove he hrelease, rfl, hcap⟩
  have hisActive : e.registration.isActive = true := by
    simp [Registration.isActive, h.active e he]
  simp only [unsubscribe, SlotMap.erase?_eq, h.get?_of_mem he, Option.map_some, hhandle, bind,
    Except.bind, hrelease, pure, Except.pure]
  cases NativeLayer.unsubscribe native e.handle with
  | error f => rfl
  | ok n => simp [Except.map, hisActive]

end Subscriptions

end EdgeWait
