/-
Several contexts that share a simulator.

A run is a sequence of turns: in each of them the host performs an operation with one of the
contexts, or the scheduler goes on by itself.

* `Parted.guest`, `Parted.settle` — the callbacks of the simulator are divided among the contexts,
  and whatever is done with one of them, the others keep theirs;
* `coexistence` — so in every run of new contexts the live callbacks are those in the tables of
  the contexts, each in one place; an operation of one context changes nothing of another, and none
  stops on a callback that has been removed.

Design notes: keys of different contexts may be equal, and a step hands the keys of all of them to
the context that it is driven with.  What keeps the contexts apart are the handles: they come from
the one table of the simulator, and a context ends no subscription but by a handle of its own table.
-/
import EdgeWait.Proofs.Sharing
import Mathlib.Algebra.GroupWithZero.Nat
import Mathlib.Algebra.Order.BigOperators.Group.List
import Mathlib.Algebra.Order.Group.Nat

namespace EdgeWait

open Sim Subscriptions

/-! ### The table of native handles -/

namespace Subscriptions

variable {σ η : Type} {s : Subscriptions σ η} {L : List (Holding σ η)}

/-- The native handles in the table of a context. -/
def filed (s : Subscriptions σ η) : List η := s.handles.toList.filterMap id

/-- The rows of the table that hold a handle are those of the holdings. -/
theorem Roster.row_iff (h : s.Roster L) {i : Nat} {handle : η} :
    s.handles[i]? = some (some handle) ↔
      ∃ e ∈ L, e.registration.id.index = i ∧ e.handle = handle := by
  constructor
  · intro hrow
    have hlt : i < 2 ^ 32 := by
      have hi := (Array.getElem?_eq_some_iff.mp hrow).choose
      rw [h.rows] at hi
      exact Nat.lt_trans hi h.pool_valid.capacity_lt
    have hindex := IdPool.index_ofNat hlt
    have hfiled : s.handle? ⟨UInt32.ofNat i⟩ = some handle := by
      rw [handle?, hindex, hrow]
      rfl
    obtain ⟨e, he, hid, hhandle⟩ := (h.handle_iff _ _).mp hfiled
    exact ⟨e, he, by rw [hid, hindex], hhandle⟩
  · rintro ⟨e, he, rfl, rfl⟩
    exact Option.join_eq_some_iff.mp ((h.handle_iff _ _).mpr ⟨e, he, rfl, rfl⟩)

/-- **The table** holds the handles of the roster, each of them once. -/
theorem Roster.filed_perm (h : s.Roster L) (hhandles : (L.map (·.handle)).Nodup) :
    s.filed.Perm (L.map (·.handle)) := by
  refine (List.perm_ext_iff_of_nodup ?_ hhandles).mpr fun handle => ?_
  · rw [filed, List.Nodup, List.pairwise_filterMap, List.pairwise_iff_getElem]
    rintro i j hi hj hij x hx _ hy rfl
    have hrow : ∀ k (hk : k < s.handles.toList.length), s.handles.toList[k] = some x →
        ∃ e ∈ L, e.registration.id.index = k ∧ e.handle = x := by
      intro k hk hx
      exact h.row_iff.mp (by rw [← Array.getElem?_toList, List.getElem?_eq_getElem hk, hx])
    obtain ⟨e, he, rfl, hex⟩ := hrow i hi hx
    obtain ⟨f, hf, rfl, hfx⟩ := hrow j hj hy
    rw [List.inj_on_of_nodup_map hhandles he hf (hex.trans hfx.symm)] at hij
    exact Nat.lt_irrefl _ hij
  · rw [filed, List.mem_filterMap, List.mem_map]
    constructor
    · rintro ⟨row, hrow, rfl⟩
      obtain ⟨i, hi⟩ := List.mem_iff_getElem?.mp hrow
      obtain ⟨e, he, -, hhandle⟩ := h.row_iff.mp (Array.getElem?_toList ▸ hi)
      exact ⟨e, he, hhandle⟩
    · rintro ⟨e, he, rfl⟩
      have hrow := h.row_iff.mpr ⟨e, he, rfl, rfl⟩
      rw [← Array.getElem?_toList] at hrow
      exact ⟨some e.handle, List.mem_of_getElem? hrow, rfl⟩

end Subscriptions

/-! ### Runs of several contexts -/

/-- One turn of a run. -/
inductive SharedTurn (T : Type) where
  /-- The host performs an operation with one of the contexts. -/
  | use (i : Nat) (op : HostOp)
  /-- The scheduler goes on without them. -/
  | others (scheduler : T → T)

/-- Contexts on a simulator. -/
abbrev SharedSim (T : Type) := SharedBench Sim T SignalId CallbackHandle

namespace SharedBench

variable {T : Type}

/-- The number of ids that the contexts have. -/
def capacity (s : SharedSim T) : Nat :=
  (s.contexts.toList.map (·.subscriptions.pool.capacity)).sum

/-- The native handles in the tables of the contexts. -/
def filed (s : SharedSim T) : List CallbackHandle :=
  s.contexts.toList.flatMap (·.subscriptions.filed)

/-- New contexts, as some configurations ask for them, on a simulator that nobody has subscribed
to. -/
structure New (s : SharedSim T) : Prop where
  contexts : ∀ mux ∈ s.contexts, ∃ config picks, Mux.ofConfig config picks = .ok mux
  native : s.native.Unsubscribed
  log : s.log = #[]

variable [Scheduler T]

/-- The state after an operation of the host with one of the contexts.  Nothing happens when there
is no such context. -/
def host (s : SharedSim T) (i : Nat) (op : HostOp) : Except Fault (SharedSim T) :=
  match s.contexts[i]? with
  | none => .ok s
  | some mux => ((s.focus mux).host op).map (s.settle i)

def turn (s : SharedSim T) : SharedTurn T → Except Fault (SharedSim T)
  | .use i op => s.host i op
  | .others scheduler => .ok { s with scheduler := scheduler s.scheduler }

def after : List (SharedTurn T) → SharedSim T → Except Fault (SharedSim T)
  | [], s => .ok s
  | t :: rest, s =>
    match s.turn t with
    | .error f => .error f
    | .ok s => after rest s

/-- An operation is one of a context on its own bench. -/
theorem host_eq_ok {s s' : SharedSim T} {i : Nat} {op : HostOp} (h : s.host i op = .ok s') :
    (s.contexts[i]? = none ∧ s' = s) ∨ ∃ mux b', s.contexts[i]? = some mux ∧
      (s.focus mux).host op = .ok b' ∧ s' = s.settle i b' := by
  rw [host] at h
  cases hmux : s.contexts[i]? with
  | none =>
    rw [hmux] at h
    exact .inl ⟨rfl, (Except.ok.inj h).symm⟩
  | some mux =>
    simp only [hmux] at h
    cases hb : (s.focus mux).host op with
    | error f =>
      rw [hb] at h
      cases h
    | ok b' =>
      rw [hb] at h
      exact .inr ⟨mux, b', rfl, hb, (Except.ok.inj h).symm⟩

/-- What holds at the start and is kept by every turn holds after every run. -/
theorem after_induction {P : SharedSim T → Prop}
    (hstep : ∀ s t s', P s → s.turn t = .ok s' → P s') (turns : List (SharedTurn T)) :
    ∀ s s' : SharedSim T, P s → after turns s = .ok s' → P s' := by
  induction turns with
  | nil =>
    rintro s s' h ⟨⟩
    exact h
  | cons t rest ih =>
    intro s s' h hrun
    rw [after] at hrun
    cases ht : s.turn t with
    | error f =>
      rw [ht] at hrun
      cases hrun
    | ok s₁ =>
      rw [ht] at hrun
      exact ih s₁ s' (hstep s t s₁ h ht) hrun

end SharedBench

/-! ### The callbacks divided among the contexts -/

/-- A context and its roster. -/
abbrev Part := Mux SignalId CallbackHandle × List SimHolding

/-- The holdings of several contexts. -/
def Part.holdings (parts : List Part) : List SimHolding := parts.flatMap (·.2)

/-- The holdings of one context and those of the others. -/
theorem Part.holdings_perm {parts : List Part} {i : Nat} {p : Part} (hp : parts[i]? = some p) :
    (Part.holdings (parts.eraseIdx i) ++ p.2).Perm (Part.holdings parts) := by
  obtain ⟨hi, rfl⟩ := List.getElem?_eq_some_iff.mp hp
  have hperm := (List.getElem_cons_eraseIdx_perm hi).flatMap_right (·.2)
  rw [List.flatMap_cons] at hperm
  exact List.perm_append_comm.trans hperm

namespace SharedBench

variable {T : Type}

/-- The contexts have these rosters, and the callbacks of the simulator are theirs. -/
structure Parted (s : SharedSim T) (parts : List Part) : Prop where
  contexts : parts.map (·.1) = s.contexts.toList
  roster : ∀ p ∈ parts, p.1.subscriptions.Roster p.2
  covers : Covers (Part.holdings parts) s.native
  nextOrder : s.native.nextOrder = s.log.issued.length

variable {s s' : SharedSim T} {parts : List Part} {i j : Nat}
  {mux : Mux SignalId CallbackHandle} {b' : SimBench T}

theorem Parted.getElem? (h : Parted s parts) (hmux : s.contexts[i]? = some mux) :
    ∃ L, parts[i]? = some (mux, L) := by
  rw [← Array.getElem?_toList, ← h.contexts, List.getElem?_map, Option.map_eq_some_iff] at hmux
  obtain ⟨⟨_, L⟩, hp, rfl⟩ := hmux
  exact ⟨L, hp⟩

theorem Parted.roster_of_getElem? (h : Parted s parts) {L : List SimHolding}
    (hp : parts[i]? = some (mux, L)) : mux.subscriptions.Roster L :=
  h.roster _ (List.mem_of_getElem? hp)

/-- There are ids enough for the holdings of the others, and for all that one context can make. -/
theorem Parted.room (h : Parted s parts) {p : Part} (hp : parts[i]? = some p) :
    (Part.holdings (parts.eraseIdx i)).length + p.1.subscriptions.pool.capacity ≤ s.capacity := by
  obtain ⟨hi, rfl⟩ := List.getElem?_eq_some_iff.mp hp
  have hothers : ((parts.eraseIdx i).map (·.2.length)).sum ≤
      ((parts.eraseIdx i).map (·.1.subscriptions.pool.capacity)).sum := by
    refine List.sum_le_sum fun q hq => ?_
    have hcount := (h.roster q (List.mem_of_mem_eraseIdx hq)).available_add_length
    omega
  have hall := ((List.getElem_cons_eraseIdx_perm hi).map
    (·.1.subscriptions.pool.capacity)).sum_eq
  have hcapacity : s.capacity = (parts.map (·.1.subscriptions.pool.capacity)).sum := by
    rw [capacity, ← h.contexts, List.map_map]
    rfl
  rw [List.map_cons, List.sum_cons] at hall
  rw [Part.holdings, List.length_flatMap, hcapacity]
  omega

/-- **A context on its own bench** is a guest among the others. -/
theorem Parted.guest (h : Parted s parts) (hcapacity : s.capacity < 2 ^ 32)
    {L : List SimHolding} (hp : parts[i]? = some (mux, L)) :
    (s.focus mux).Guest (Part.holdings (parts.eraseIdx i))
      mux.subscriptions.pool.capacity where
  room := Nat.lt_of_le_of_lt (h.room hp) hcapacity
  tracked := by
    have hroster := h.roster_of_getElem? hp
    exact ⟨L, hroster, fun _ =>
      ⟨h.covers.perm (Part.holdings_perm hp).symm, hroster.live_eq, h.nextOrder⟩⟩
  capacity := rfl

/-- **When it is put back**, the others have the rosters that they had. -/
theorem Parted.settle (h : Parted s parts) {p : Part} (hp : parts[i]? = some p) {capacity : Nat}
    (hguest : b'.Guest (Part.holdings (parts.eraseIdx i)) capacity) :
    ∃ L', Parted (s.settle i b') (parts.set i (b'.mux, L')) := by
  obtain ⟨L', hroster, hshares⟩ := hguest.shares
  obtain ⟨hi, -⟩ := List.getElem?_eq_some_iff.mp hp
  refine ⟨L', ?_, ?_, ?_, hshares.nextOrder⟩
  · rw [List.map_set, h.contexts]
    exact (Array.toList_setIfInBounds ..).symm
  · intro q hq
    rcases List.mem_or_eq_of_mem_set hq with hq | rfl
    · exact h.roster q hq
    · exact hroster
  · have hset : (parts.set i (b'.mux, L'))[i]? = some (b'.mux, L') := by
      rw [List.getElem?_set_self hi]
    have hperm := Part.holdings_perm hset
    rw [List.eraseIdx_set_eq] at hperm
    exact hshares.covers.perm hperm

/-- New contexts have nothing to divide. -/
theorem New.parted (h : New s) : ∃ parts, Parted s parts := by
  have hnone : Part.holdings (s.contexts.toList.map fun mux => (mux, [])) = [] := by
    simp [Part.holdings]
  refine ⟨s.contexts.toList.map fun mux => (mux, []), ?_, ?_, ?_, ?_⟩
  · rw [List.map_map]
    exact List.map_id _
  · intro p hp
    obtain ⟨mux, hmux, rfl⟩ := List.mem_map.mp hp
    obtain ⟨config, picks, hconfig⟩ := h.contexts mux (Array.mem_toList_iff.mp hmux)
    obtain ⟨policy, -, rfl⟩ := Mux.ofConfig_eq hconfig
    obtain ⟨hvalid, -, hfree⟩ := IdPool.pool_valid config.pool picks
    exact Subscriptions.roster_ofPool hvalid hfree
  · rw [hnone]
    exact covers_start h.native
  · rw [h.native.nextOrder, h.log]
    rfl

/-! ### What the contexts leave of each other -/

theorem Parted.handles_nodup (h : Parted s parts) {p : Part} (hp : p ∈ parts) :
    (p.2.map (·.handle)).Nodup := by
  have hall := h.covers.handles_nodup
  rw [Part.holdings, List.map_flatMap] at hall
  exact (List.nodup_flatMap.mp hall).1 p hp

/-- The tables hold the handles of all holdings. -/
theorem Parted.filed_perm (h : Parted s parts) :
    s.filed.Perm ((Part.holdings parts).map (·.handle)) := by
  rw [filed, ← h.contexts, List.flatMap_map, Part.holdings, List.map_flatMap]
  exact List.Perm.flatMap_left _ fun p hp => (h.roster p hp).filed_perm (h.handles_nodup hp)

end SharedBench

/-- From `n` to `n'` these callbacks have been left as they are. -/
structure Sim.Spares (handles : List CallbackHandle) (n n' : Sim) : Prop where
  /-- They are live, with the same signal, condition, key and number. -/
  callbacks : ∀ handle ∈ handles, ∃ c,
    n.callbacks.get? handle = some c ∧ n'.callbacks.get? handle = some c
  /-- They are called in the same order. -/
  order : ∀ signal, (n'.subscribers signal).filter (·.1 ∈ handles) =
    (n.subscribers signal).filter (·.1 ∈ handles)

namespace SharedBench

variable {T : Type} {s s' : SharedSim T} {parts parts' : List Part} {i j : Nat}
  {mux : Mux SignalId CallbackHandle} {b' : SimBench T}

/-- A context that keeps its roster keeps its callbacks. -/
theorem Parted.spares (h : Parted s parts) (h' : Parted s' parts') {p : Part} (hp : p ∈ parts)
    (hp' : p ∈ parts') : Spares p.1.subscriptions.filed s.native s'.native := by
  have hsame : ∀ handle ∈ p.1.subscriptions.filed, ∃ c,
      s.native.callbacks.get? handle = some c ∧ s'.native.callbacks.get? handle = some c := by
    intro handle hhandle
    have hmem := ((h.roster p hp).filed_perm (h.handles_nodup hp)).mem_iff.mp hhandle
    obtain ⟨e, he, rfl⟩ := List.mem_map.mp hmem
    exact ⟨callbackOf e, h.covers.get?_of_mem e (List.mem_flatMap.mpr ⟨p, hp, he⟩),
      h'.covers.get?_of_mem e (List.mem_flatMap.mpr ⟨p, hp', he⟩)⟩
  refine ⟨hsame, fun signal => filter_subscribers_congr h.covers h'.covers ?_ signal⟩
  intro handle hhandle
  obtain ⟨c, hc, hc'⟩ := hsame handle hhandle
  rw [hc, hc']

/-- No context gains or loses ids. -/
theorem capacity_settle (hmux : s.contexts[i]? = some mux)
    (hcapacity : b'.mux.subscriptions.pool.capacity = mux.subscriptions.pool.capacity) :
    (s.settle i b').capacity = s.capacity := by
  rw [← Array.getElem?_toList] at hmux
  obtain ⟨hi, rfl⟩ := List.getElem?_eq_some_iff.mp hmux
  have hself : (s.contexts.toList.map (·.subscriptions.pool.capacity)).set i
      b'.mux.subscriptions.pool.capacity =
      s.contexts.toList.map (·.subscriptions.pool.capacity) := by
    rw [hcapacity, ← List.getElem_map (fun m : Mux SignalId CallbackHandle =>
      m.subscriptions.pool.capacity), List.set_getElem_self]
    rw [List.length_map]
    exact hi
  show (((s.contexts.setIfInBounds i b'.mux).toList).map (·.subscriptions.pool.capacity)).sum = _
  rw [Array.toList_setIfInBounds, List.map_set, hself]
  rfl

variable [Scheduler T]

/-- **An operation** with one context leaves the others their rosters. -/
theorem Parted.host (h : Parted s parts) (hcapacity : s.capacity < 2 ^ 32) {op : HostOp}
    (hs : s.host i op = .ok s') : ∃ parts', Parted s' parts' ∧ s'.capacity = s.capacity ∧
      ∀ j, j ≠ i → parts'[j]? = parts[j]? := by
  obtain ⟨-, rfl⟩ | ⟨mux, b', hmux, hb, rfl⟩ := host_eq_ok hs
  · exact ⟨parts, h, rfl, fun _ _ => rfl⟩
  · obtain ⟨L, hp⟩ := h.getElem? hmux
    have hguest := (h.guest hcapacity hp).host hb
    obtain ⟨L', hparted⟩ := h.settle hp hguest
    exact ⟨_, hparted, capacity_settle hmux hguest.capacity, fun j hj =>
      List.getElem?_set_ne (Ne.symm hj)⟩

theorem Parted.after (hnew : New s) (hcapacity : s.capacity < 2 ^ 32)
    {turns : List (SharedTurn T)} (hrun : SharedBench.after turns s = .ok s') :
    (∃ parts, Parted s' parts) ∧ s'.capacity = s.capacity := by
  refine after_induction (P := fun s₁ => (∃ parts, Parted s₁ parts) ∧ s₁.capacity = s.capacity)
    ?_ turns s s' ⟨hnew.parted, rfl⟩ hrun
  rintro s₁ t s₂ ⟨⟨parts, h⟩, hsame⟩ hturn
  cases t with
  | use i op =>
    obtain ⟨parts', h', hsame', -⟩ := h.host (hsame ▸ hcapacity) hturn
    exact ⟨⟨parts', h'⟩, hsame'.trans hsame⟩
  | others scheduler =>
    obtain rfl := Except.ok.inj hturn
    exact ⟨⟨parts, h.contexts, h.roster, h.covers, h.nextOrder⟩, hsame⟩

/-- What holds of contexts that share a simulator. -/
structure Coexist (s : SharedSim T) : Prop where
  /-- The live callbacks are those in the tables of the contexts, each of them in one place. -/
  live_iff : ∀ handle, s.native.isLive handle = true ↔ handle ∈ s.filed
  nodup : s.filed.Nodup
  count : s.native.callbacks.live = s.filed.length
  /-- An operation stops on a wait that is recorded twice, on a clock whose times do not fit their
  words, or on an event whose signal does not exist, and never because a callback has been
  removed. -/
  faults : ∀ i op f, s.host i op = .error f →
    (∃ mux signal edge task, s.contexts[i]? = some mux ∧ op = .context (.addWait signal edge task) ∧
      task ∈ mux.pending.waiting signal edge ∧ f = .duplicateWait task edge (logText signal)) ∨
    (∃ signal half cycles, op = .scheduleClock signal half cycles ∧ f.IsOverflow) ∨
    op.drives = true ∧ s.native.Misses f
  /-- An operation of one context changes nothing of another. -/
  frame : ∀ i op s', s.host i op = .ok s' → ∀ j mux, j ≠ i → s.contexts[j]? = some mux →
    s'.contexts[j]? = some mux ∧ Spares mux.subscriptions.filed s.native s'.native

theorem Parted.coexist (h : Parted s parts) (hcapacity : s.capacity < 2 ^ 32) : Coexist s where
  live_iff := by
    intro handle
    rw [h.filed_perm.mem_iff, List.mem_map, Sim.isLive, SlotMap.contains, Option.isSome_iff_exists]
    constructor
    · rintro ⟨c, hc⟩
      exact h.covers.mem_of_get? handle c hc
    · rintro ⟨e, he, rfl⟩
      exact ⟨_, h.covers.get?_of_mem e he⟩
  nodup := h.filed_perm.nodup_iff.mpr h.covers.handles_nodup
  count := by rw [h.covers.live_eq, h.filed_perm.length_eq, List.length_map]
  faults := by
    intro i op f hf
    rw [SharedBench.host] at hf
    cases hmux : s.contexts[i]? with
    | none =>
      rw [hmux] at hf
      cases hf
    | some mux =>
      simp only [hmux] at hf
      cases hb : (s.focus mux).host op with
      | ok b' =>
        rw [hb] at hf
        cases hf
      | error f' =>
        rw [hb] at hf
        obtain rfl := Except.error.inj hf
        obtain ⟨L, hp⟩ := h.getElem? hmux
        obtain ⟨signal, edge, task, hop, hwaiting, hf⟩ | hother :=
          (h.guest hcapacity hp).host_fault hb
        · exact .inl ⟨mux, signal, edge, task, rfl, hop, hwaiting, hf⟩
        · exact .inr hother
  frame := by
    intro i op s' hs j mux hj hmux
    obtain ⟨parts', h', -, hothers⟩ := h.host hcapacity hs
    obtain ⟨L, hp⟩ := h.getElem? hmux
    -- the part of another context is what it was
    have hp' := (hothers j hj).trans hp
    refine ⟨?_, h.spares h' (List.mem_of_getElem? hp) (List.mem_of_getElem? hp')⟩
    rw [← Array.getElem?_toList, ← h'.contexts, List.getElem?_map, hp']
    rfl

/-- **Contexts that share a simulator do not damage each other**, as long as there is room for the
callbacks of all of them. -/
theorem coexistence {s₀ s : SharedSim T} (hnew : New s₀) (hcapacity : s₀.capacity < 2 ^ 32)
    {turns : List (SharedTurn T)} (hrun : SharedBench.after turns s₀ = .ok s) : Coexist s := by
  obtain ⟨⟨parts, h⟩, hsame⟩ := Parted.after hnew hcapacity hrun
  exact h.coexist (hsame ▸ hcapacity)

/-- A new context with two ids. -/
def smallContext : Mux SignalId CallbackHandle where
  policy := ⟨2, 8, by decide, by decide, by decide⟩
  unknownAsZero := false
  pending := .empty
  subscriptions := .ofPool (({ capacity := 2 } : PoolConfig).pool [])
  bridge := { profiling := false }
  counters := {}
  failed := false

variable {T : Type}

/-- Two of them on a simulator. -/
def twoContexts (scheduler : T) : SharedSim T where
  contexts := #[smallContext, smallContext]
  native := .initial
  scheduler := scheduler

theorem new_twoContexts (scheduler : T) : New (twoContexts scheduler) := by
  refine ⟨fun mux hmux => ⟨{ pool := { capacity := 2 } }, [], ?_⟩, ⟨rfl, rfl⟩, rfl⟩
  obtain rfl : mux = smallContext := by simpa [twoContexts] using hmux
  rfl

/-- Each context waits for both signals, and one of them is about to change.  The keys of the
contexts are the same, but with the signals the other way round. -/
def crossedKeys : List (SharedTurn T) :=
  [.use 0 (.addSignal "request" .zero), .use 0 (.addSignal "grant" .zero),
    .use 0 (.context (.waitNow ⟨0⟩ .either ⟨1⟩)), .use 1 (.context (.waitNow ⟨1⟩ .either ⟨2⟩)),
    .use 0 (.context (.watch ⟨1⟩ .rising ⟨3⟩)), .use 1 (.context (.watch ⟨0⟩ .rising ⟨4⟩)),
    .use 0 (.schedule ⟨5⟩ ⟨0⟩ .one)]

/-- The step that is driven with the second context takes the key of the first for its own, and ends
a registration of its own. -/
def crossedSteps : List (SharedTurn ScriptedScheduler) :=
  crossedKeys ++ [.use 1 (.step (.recorded SignalId)), .use 1 (.context (.cancel ⟨0, 0⟩))]

/-- The two contexts, with a scheduler that accepts whatever it is given. -/
def twoScripted : SharedSim ScriptedScheduler := twoContexts (.failingAt [] ⟨"", ""⟩)

theorem coexistence_crossedSteps :
    New twoScripted ∧ twoScripted.capacity < 2 ^ 32 ∧
      ∃ s, SharedBench.after crossedSteps twoScripted = .ok s ∧
        s.filed = [⟨0, 0⟩, ⟨2, 0⟩, ⟨3, 0⟩] ∧ Coexist s := by
  have hnew : New twoScripted := new_twoContexts _
  have hcapacity : twoScripted.capacity < 2 ^ 32 := by decide
  obtain ⟨s, hrun, hfiled⟩ : ∃ s, SharedBench.after crossedSteps twoScripted = .ok s ∧
      s.filed = [⟨0, 0⟩, ⟨2, 0⟩, ⟨3, 0⟩] := ⟨_, rfl, rfl⟩
  exact ⟨hnew, hcapacity, s, hrun, hfiled, coexistence hnew hcapacity hrun⟩

end SharedBench

end EdgeWait
