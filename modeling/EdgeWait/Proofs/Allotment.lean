/-
What a pool has handed out and what it still has: together always its range, each id once.

* `available_add_count` — the free ids and the set flags make up the capacity, so the number of ids
  in use can be read off the stack;
* `release_of_alloc`, `alloc_of_release` — handing out and taking back undo each other;
* `handOut_eq` — the ids that are handed out in a row are the ones in front of the stack;
* `partition_after` — the whole account, for a pool made in any way and asked for anything since.

Design notes: a pool is `Valid` when it is made and each request keeps it so; the account is read
off a valid pool.  The picks of a shuffle are arbitrary, so that nothing is assumed of where they
are drawn from.
-/
import EdgeWait.Bench
import EdgeWait.Proofs.Pool

namespace EdgeWait

/-- What a pool is asked for. -/
inductive PoolCall where
  | alloc
  | release (id : CallbackId)
deriving DecidableEq

namespace IdPool

/-- Does what the pool is asked for. An allocation that finds no free id changes nothing. -/
def serve (p : IdPool) : PoolCall → Except Fault IdPool
  | .alloc =>
    match p.alloc with
    | .error f => .error f
    | .ok none => .ok p
    | .ok (some (_, p')) => .ok p'
  | .release id => p.release id

/-- Does all that the pool is asked for, in turn. -/
def serveAll : List PoolCall → IdPool → Except Fault IdPool
  | [], p => .ok p
  | call :: rest, p =>
    match p.serve call with
    | .error f => .error f
    | .ok p' => serveAll rest p'

/-- Hands out so many ids in a row, or all there are. -/
def handOut : Nat → IdPool → Except Fault (List CallbackId × IdPool)
  | 0, p => .ok ([], p)
  | n + 1, p =>
    match p.alloc with
    | .error f => .error f
    | .ok none => .ok ([], p)
    | .ok (some (id, p')) =>
      match handOut n p' with
      | .error f => .error f
      | .ok (taken, last) => .ok (id :: taken, last)

/-! ### The flags counted -/

/-- The flags of a pool are those of the ids in its range, in order. -/
theorem inUse_eq_map {p : IdPool} (h : p.capacity < 2 ^ 32) :
    p.inUse.toList = (ids p.capacity).map p.isInUse := by
  rw [ids, List.map_map]
  refine List.ext_getElem (by simp [capacity]) fun n hn hn' => ?_
  have hlt : n < p.inUse.size := by simpa using hn
  have hindex : (CallbackId.mk (UInt32.ofNat n)).index = n := index_ofNat (Nat.lt_trans hlt h)
  simp [isInUse, hindex, hlt]

/-- **The free ids and the set flags** make up the capacity. -/
theorem available_add_count {p : IdPool} (h : p.Valid) :
    p.available + p.inUse.count true = p.capacity := by
  have hcount : p.inUse.count true = ((ids p.capacity).filter p.isInUse).length := by
    rw [← Array.count_toList, inUse_eq_map h.capacity_lt, List.count, List.countP_map,
      ← List.countP_eq_length_filter]
    exact List.countP_congr fun id _ => by simp
  rw [hcount]
  refine available_add_length h ((nodup_ids h.capacity_lt).filter _) fun id => ?_
  rw [List.mem_filter, mem_ids_iff h.capacity_lt]
  refine ⟨fun hid => hid.2, fun hid => ⟨?_, hid⟩⟩
  exact (Array.getElem?_eq_some_iff.mp (isInUse_iff.mp hid)).choose

/-! ### Taking back what was handed out -/

theorem setIfInBounds_undo {xs : Array Bool} {i : Nat} {v w : Bool} (h : xs[i]? = some v) :
    (xs.setIfInBounds i w).setIfInBounds i v = xs := by
  refine Array.ext_getElem? fun n => ?_
  by_cases hn : i = n
  · subst hn
    have hlt : i < xs.size := (Array.getElem?_eq_some_iff.mp h).choose
    have hv : xs[i] = v := by simpa [hlt] using h
    simp [hlt, hv]
  · simp [hn]

/-- **An allocation and the release** of the id that it answers with leave the pool as it was. -/
theorem release_of_alloc {p p' : IdPool} {id : CallbackId} (h : p.Valid)
    (halloc : p.alloc = .ok (some (id, p'))) : p'.release id = .ok p := by
  cases hf : p.free with
  | nil =>
    rw [alloc, hf] at halloc
    cases halloc
  | cons top rest =>
    have hflag : p.inUse[top.index]? = some false := (h.mem_free_iff top).mp (by simp [hf])
    have hlt : top.index < p.inUse.size := (Array.getElem?_eq_some_iff.mp hflag).choose
    have hfree : p.isInUse top = false := by simp [isInUse, hflag]
    rw [alloc, hf] at halloc
    simp only [hfree, Bool.false_eq_true, if_false, Except.ok.injEq, Option.some.injEq,
      Prod.mk.injEq] at halloc
    obtain ⟨rfl, rfl⟩ := halloc
    simp only [release, Array.getElem?_setIfInBounds_self_of_lt hlt, setIfInBounds_undo hflag,
      ← hf]

/-- **A release and an allocation** hand out the same id again and leave the pool as it was. -/
theorem alloc_of_release {p p' : IdPool} {id : CallbackId} (hid : p.isInUse id = true)
    (hrelease : p.release id = .ok p') : p'.alloc = .ok (some (id, p)) := by
  have hflag := isInUse_iff.mp hid
  have hlt : id.index < p.inUse.size := (Array.getElem?_eq_some_iff.mp hflag).choose
  simp only [release, hflag, Except.ok.injEq] at hrelease
  subst hrelease
  simp [alloc, isInUse, hlt, setIfInBounds_undo hflag]

theorem release_of_outOfRange {p : IdPool} {id : CallbackId} (hid : p.capacity ≤ id.index) :
    p.release id = .error (.idOutOfRange id p.capacity) := by
  have hnone : p.inUse[id.index]? = none := Array.getElem?_eq_none hid
  rw [release, hnone]

theorem release_of_free {p : IdPool} (h : p.Valid) {id : CallbackId} (hid : id ∈ p.free) :
    p.release id = .error (.idNotInUse id) := by
  rw [release, (h.mem_free_iff id).mp hid]

/-! ### Requests in a row -/

theorem Valid.serve {p p' : IdPool} (h : p.Valid) {call : PoolCall}
    (hserve : p.serve call = .ok p') : p'.Valid ∧ p'.capacity = p.capacity := by
  cases call with
  | alloc =>
    obtain ⟨-, halloc⟩ | ⟨id, last, halloc, hlast, -, hcap, -, -⟩ := alloc_spec h
    · rw [IdPool.serve, halloc] at hserve
      obtain rfl := Except.ok.inj hserve
      exact ⟨h, rfl⟩
    · rw [IdPool.serve, halloc] at hserve
      obtain rfl := Except.ok.inj hserve
      exact ⟨hlast, hcap⟩
  | release id =>
    -- only an id that is in use is taken back
    have hid : p.isInUse id = true := by
      rw [isInUse_iff]
      rw [IdPool.serve, release] at hserve
      split at hserve
      · cases hserve
      · cases hserve
      · assumption
    obtain ⟨last, hrelease, hlast, -, hcap, -⟩ := release_spec h hid
    obtain rfl := Except.ok.inj (hrelease.symm.trans hserve)
    exact ⟨hlast, hcap⟩

theorem Valid.serveAll (calls : List PoolCall) :
    ∀ {p p' : IdPool}, p.Valid → serveAll calls p = .ok p' →
      p'.Valid ∧ p'.capacity = p.capacity := by
  induction calls with
  | nil =>
    intro p p' h hrun
    obtain rfl := Except.ok.inj hrun
    exact ⟨h, rfl⟩
  | cons call rest ih =>
    intro p p' h hrun
    rw [IdPool.serveAll] at hrun
    cases hone : p.serve call with
    | error f =>
      rw [hone] at hrun
      cases hrun
    | ok q =>
      rw [hone] at hrun
      obtain ⟨hq, hcap⟩ := h.serve hone
      obtain ⟨hp', hcap'⟩ := ih hq hrun
      exact ⟨hp', hcap'.trans hcap⟩

/-- Ids handed out in a row come off the stack in its order. -/
theorem handOut_eq (n : Nat) :
    ∀ {p : IdPool}, p.Valid → ∃ last, p.handOut n = .ok (p.free.take n, last) ∧ last.Valid ∧
      last.free = p.free.drop n := by
  induction n with
  | zero => exact fun {p} h => ⟨p, rfl, h, rfl⟩
  | succ n ih =>
    intro p h
    obtain ⟨hnil, halloc⟩ | ⟨id, p', halloc, hp', hfree, -, -, -⟩ := alloc_spec h
    · exact ⟨p, by simp [handOut, halloc, hnil], h, by simp [hnil]⟩
    · obtain ⟨last, hrest, hlast, hdrop⟩ := ih hp'
      refine ⟨last, ?_, hlast, ?_⟩
      · simp [handOut, halloc, hrest, hfree]
      · simp [hfree, hdrop]

/-! ### The account -/

/-- Which ids of a pool are free and which are in use. -/
structure Partitioned (capacity : UInt32) (p : IdPool) : Prop where
  /-- No id is on the stack twice. -/
  free_nodup : p.free.Nodup
  /-- The ids of the range are free or in use, and there are no others. -/
  covered : ∀ id, id.index < capacity.toNat ↔ id ∈ p.free ∨ p.isInUse id = true
  /-- A free id is not in use. -/
  apart : ∀ id ∈ p.free, p.isInUse id = false
  capacity_eq : p.capacity = capacity.toNat
  available_add : p.available + p.inUseCount = capacity.toNat
  /-- The number of ids in use is that of the set flags. -/
  count_flags : p.inUseCount = p.inUse.count true

theorem Valid.partitioned {p : IdPool} {capacity : UInt32} (h : p.Valid)
    (hcap : p.capacity = capacity.toNat) : Partitioned capacity p where
  free_nodup := h.free_nodup
  covered := by
    intro id
    rw [h.mem_free_iff, isInUse_iff, ← hcap, IdPool.capacity]
    constructor
    · intro hlt
      rw [Array.getElem?_eq_getElem hlt]
      cases p.inUse[id.index] <;> simp
    · rintro (hid | hid) <;> exact (Array.getElem?_eq_some_iff.mp hid).choose
  apart := fun id hid => by simp [isInUse, (h.mem_free_iff id).mp hid]
  capacity_eq := hcap
  available_add := by
    have hsum := available_add_count h
    rw [inUseCount, ← hcap]
    omega
  count_flags := by
    have hsum := available_add_count h
    rw [inUseCount]
    omega

/-- What a pool does when it is asked next. -/
structure Lends (p : IdPool) : Prop where
  /-- As long as an id is free, one that is not in use is handed out. It is flagged, and when it is
  released all is as it was. -/
  alloc : p.free ≠ [] → ∃ id p', p.alloc = .ok (some (id, p')) ∧ p.isInUse id = false ∧
    (∀ i, p'.isInUse i = true ↔ i = id ∨ p.isInUse i = true) ∧ p'.release id = .ok p
  /-- When no id is free, none is handed out, and who asks for a registration is told so. -/
  exhausted : p.free = [] → p.alloc = .ok none ∧
    ∀ {N T σ η : Type} [NativeLayer N σ η] [LogText σ] [LogText η] (b : Bench N T σ η) (signal : σ)
      (edge : Edge) (tasks : List TaskId) (mode : Mode), b.mux.subscriptions.pool = p →
      b.register signal edge tasks mode = .failed (.poolExhausted p.capacity) b
  /-- An id that is in use is taken back. It is the next to be handed out, and when it has been, all
  is as it was. -/
  release : ∀ id, p.isInUse id = true → ∃ p', p.release id = .ok p' ∧
    (∀ i, p'.isInUse i = true ↔ i ≠ id ∧ p.isInUse i = true) ∧ p'.alloc = .ok (some (id, p))
  release_free : ∀ id ∈ p.free, p.release id = .error (.idNotInUse id)
  release_outOfRange : ∀ id, p.capacity ≤ id.index →
    p.release id = .error (.idOutOfRange id p.capacity)

theorem Valid.lends {p : IdPool} (h : p.Valid) : Lends p where
  alloc := by
    intro hfree
    obtain ⟨hnil, -⟩ | ⟨id, p', halloc, -, -, -, hid, huse⟩ := alloc_spec h
    · exact absurd hnil hfree
    · exact ⟨id, p', halloc, hid, huse, release_of_alloc h halloc⟩
  exhausted := by
    intro hnil
    have halloc : p.alloc = .ok none := by rw [IdPool.alloc, hnil]
    refine ⟨halloc, ?_⟩
    intro N T σ η _ _ _ b signal edge tasks mode hpool
    have hnone : b.mux.subscriptions.subscribe b.native signal edge tasks mode = .ok none := by
      rw [Subscriptions.subscribe, hpool, halloc]
      rfl
    rw [Bench.register, hnone, hpool]
  release := by
    intro id hid
    obtain ⟨p', hrelease, -, -, -, huse⟩ := release_spec h hid
    exact ⟨p', hrelease, huse, alloc_of_release hid hrelease⟩
  release_free := fun _ hid => release_of_free h hid
  release_outOfRange := fun _ hid => release_of_outOfRange hid

/-- **A pool partitions its range**, however it was made and whatever it has been asked for: each id
is free or in use, and the number in use is that of the set flags. It goes on to hand out exactly
what is free and to take back exactly what is in use. A new pool hands out its whole range, each id
once, before it has nothing left. -/
theorem partition_after {capacity : UInt32} {p₀ p : IdPool} {calls : List PoolCall}
    (hbuilt : Built capacity p₀) (hrun : serveAll calls p₀ = .ok p) :
    Partitioned capacity p ∧ Lends p ∧
      ∃ order last, p₀.handOut capacity.toNat = .ok (order, last) ∧ order.Nodup ∧
        (∀ id, id ∈ order ↔ id.index < capacity.toNat) ∧ last.alloc = .ok none := by
  obtain ⟨hvalid, hperm, hflags⟩ := hbuilt.spec
  have hcap : p₀.capacity = capacity.toNat := by simp [IdPool.capacity, hflags]
  obtain ⟨hp, hsame⟩ := hvalid.serveAll calls hrun
  refine ⟨hp.partitioned (hsame.trans hcap), hp.lends, ?_⟩
  -- the stack of a new pool is as long as its range
  have hlen : p₀.free.length = capacity.toNat := by simpa [ids] using hperm.length_eq
  obtain ⟨last, hout, hlast, hdrop⟩ := handOut_eq capacity.toNat hvalid
  refine ⟨p₀.free, last, ?_, hvalid.free_nodup, ?_, ?_⟩
  · rw [hout, List.take_of_length_le (Nat.le_of_eq hlen)]
  · exact fun id => hperm.mem_iff.trans (mem_ids_iff capacity.toNat_lt id)
  · rw [List.drop_of_length_le (Nat.le_of_eq hlen)] at hdrop
    rw [IdPool.alloc, hdrop]

/-- A shuffled pool of three ids, of which one has been taken back and handed out again. -/
theorem partition_after_twoOfThree :
    Built 3 (PoolConfig.pool { capacity := 3, shuffle := true } [0, 1]) ∧
      serveAll [.alloc, .alloc, .release ⟨1⟩, .alloc]
        (PoolConfig.pool { capacity := 3, shuffle := true } [0, 1]) =
          .ok ⟨[⟨0⟩], #[false, true, true]⟩ ∧
      Partitioned 3 ⟨[⟨0⟩], #[false, true, true]⟩ := by
  have hbuilt : Built 3 (PoolConfig.pool { capacity := 3, shuffle := true } [0, 1]) :=
    .configured { capacity := 3, shuffle := true } [0, 1]
  have hrun : serveAll [.alloc, .alloc, .release ⟨1⟩, .alloc]
      (PoolConfig.pool { capacity := 3, shuffle := true } [0, 1]) =
        .ok ⟨[⟨0⟩], #[false, true, true]⟩ := by
    rfl
  exact ⟨hbuilt, hrun, (partition_after hbuilt hrun).1⟩

end IdPool

end EdgeWait
