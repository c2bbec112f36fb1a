/-
Pooled storage grows to its high-water mark, and no further.

The registrations of a context and the callbacks of a simulator are kept in tables of slots, and
slots are used again.  So a table has as many slots as there have been registrations, or callbacks,
at a time.

* `stored_after` — in every run of a new context, on any native layer, the arena has as many slots
  as the context has had subscriptions open at a time, and no more than its pool has ids;
* `Sim.stored_after` — in every run of a new simulator, whatever contexts it is run with, there are
  as many slots for callbacks as there have been callbacks at a time;
* `slots_highWater` — both.

Design notes: what a context has had open is read off the calls that are on record, so that no
moment of a run is passed over.  The simulator keeps no record.  Its callbacks are counted whenever
the turn of one of them has come, and after each turn of the host; from one count to the next they
only become more (`Sim.Fills`), or only fewer (`Sim.Drops`).
-/
import EdgeWait.Proofs.Causality
import EdgeWait.Proofs.Storage
import EdgeWait.Proofs.Traces
import EdgeWait.Switchboard
import Mathlib.Data.List.Infix

namespace EdgeWait

/-! ### Subscriptions that are open -/

section Calls

variable {σ η : Type}

/-- A call opens a subscription; any other ends one. -/
def NativeCall.opens : NativeCall σ η → Bool
  | .subscribed .. => true
  | .unsubscribed _ => false

/-- How many subscriptions calls have left open. -/
def stillOpen (calls : List (NativeCall σ η)) : Nat :=
  calls.countP (·.opens) - calls.countP (!·.opens)

theorem stillOpen_eq {calls : List (NativeCall σ η)} {n : Nat}
    (h : calls.countP (·.opens) = calls.countP (!·.opens) + n) : stillOpen calls = n := by
  rw [stillOpen, h, Nat.add_sub_cancel_left]

/-- How many subscriptions have been open at a time. -/
def mostOpen (calls : List (NativeCall σ η)) : Nat :=
  peak (calls.inits.map stillOpen)

theorem mostOpen_concat (calls : List (NativeCall σ η)) (call : NativeCall σ η) :
    mostOpen (calls ++ [call]) = max (mostOpen calls) (stillOpen (calls ++ [call])) := by
  simp [mostOpen, List.inits_append]

end Calls

namespace Bench

variable {N T σ η : Type}

/-- The arena has as many slots as there have been subscriptions open at a time. -/
structure Metered (_ : List (Holding σ η)) (arena : Arena σ) (native : NativeRecord N σ η)
    (_ : List RegistrationKey) : Prop where
  tidy : arena.Tidy
  opened_eq : native.calls.countP (·.opens) = native.calls.countP (!·.opens) + arena.live
  slots_eq : arena.slots.size = mostOpen native.calls

/-- The storage of a context that has come from `b₀` to `b`. -/
structure Stored (b₀ b : RecordedBench N T σ η) : Prop where
  /-- Each slot holds a registration, or is on the free list once. -/
  tidy : b.mux.subscriptions.arena.Tidy
  active_eq : b.mux.activeRegistrations = stillOpen b.native.calls
  slots_eq : b.mux.subscriptions.arena.slots.size = mostOpen b.native.calls
  capacity : b.mux.subscriptions.pool.capacity = b₀.mux.subscriptions.pool.capacity
  slots_le : b.mux.subscriptions.arena.slots.size ≤ b.mux.subscriptions.pool.capacity
  /-- Neither the index of a slot nor that of the next one is cut. -/
  index_exact : ∀ i ≤ b.mux.subscriptions.arena.slots.size, (UInt32.ofNat i).toNat = i

variable [NativeLayer N σ η]

/-- **Registrations and removals** keep the arena as large as it has had to be. -/
theorem tracking_metered : Tracking (Metered (N := N) (σ := σ) (η := η)) where
  opened := by
    intro L arena native issued key handle native' arena' r h _ _ _ hinsert hsubscribe
    obtain rfl : arena' = (arena.insert r).2 := congrArg Prod.snd hinsert
    obtain ⟨-, rfl⟩ := Prod.mk.inj hsubscribe
    set call : NativeCall σ η := .subscribed r.signal r.condition key
      (NativeLayer.subscribe native.layer r.signal r.condition key).1
    have hopened : (native.calls ++ [call]).countP (·.opens) =
        (native.calls ++ [call]).countP (!·.opens) + (arena.insert r).2.live := by
      have hcall : call.opens = true := rfl
      rw [List.countP_append, List.countP_append, h.opened_eq, SlotMap.live_insert]
      simp [hcall, Nat.add_assoc]
    refine ⟨SlotMap.insert_tidy h.tidy r, hopened, ?_⟩
    calc (arena.insert r).2.slots.size
        = max arena.slots.size (arena.insert r).2.live := SlotMap.size_insert_of_tidy h.tidy r
      _ = max (mostOpen native.calls) (stillOpen (native.calls ++ [call])) := by
          rw [h.slots_eq, stillOpen_eq hopened]
      _ = mostOpen (native.calls ++ [call]) := (mostOpen_concat native.calls call).symm
  closed := by
    intro L arena native issued native' e h _ _ hget hunsubscribe
    obtain ⟨layer, -, rfl⟩ := unsubscribe_eq_ok.mp hunsubscribe
    set call : NativeCall σ η := .unsubscribed e.handle
    -- one fewer is open than before, so the mark stays where it is
    have hlive := h.tidy.live_erase_add_one hget
    have hopened : (native.calls ++ [call]).countP (·.opens) =
        (native.calls ++ [call]).countP (!·.opens) + (arena.erase e.key).live := by
      have hcall : call.opens = false := rfl
      rw [List.countP_append, List.countP_append, h.opened_eq, List.countP_singleton,
        List.countP_singleton, hcall, if_neg Bool.false_ne_true, Bool.not_false, if_pos rfl]
      omega
    have hle := h.tidy.live_le
    refine ⟨SlotMap.erase_tidy h.tidy hget, hopened, ?_⟩
    rw [mostOpen_concat, stillOpen_eq hopened, ← h.slots_eq, SlotMap.size_erase]
    omega

variable [Scheduler T] [DecidableEq σ] [LogText σ] [LogText η]

/-- **Every run** of a new context keeps its storage as small as it can be. -/
theorem stored_after {b₀ b : RecordedBench N T σ η} (hfresh : Fresh b₀)
    {turns : List (Turn N T σ)} (hrun : after turns b₀ = .ok b) : Stored b₀ b := by
  obtain ⟨⟨L, h⟩, hcapacity⟩ : (∃ L, b.Tracked Metered L) ∧
      b.mux.subscriptions.pool.capacity = b₀.mux.subscriptions.pool.capacity := by
    refine after_induction (P := fun b => (∃ L, b.Tracked Metered L) ∧
      b.mux.subscriptions.pool.capacity = b₀.mux.subscriptions.pool.capacity) turns ?_ b₀ b
        ⟨⟨[], hfresh.tracked fun _ => ⟨SlotMap.tidy_empty, rfl, rfl⟩⟩, rfl⟩ hrun
    rintro b t - b' ⟨⟨L, h⟩, hcapacity⟩ hturn
    rcases t with op | ⟨native, scheduler⟩
    · obtain ⟨new, hperformed⟩ := perform_roster tracking_metered h hturn
      exact ⟨⟨_, hperformed.tracked⟩, hperformed.capacity.trans hcapacity⟩
    · obtain rfl := Except.ok.inj hturn
      exact ⟨⟨L, h.roster, h.extra.tidy, h.extra.opened_eq, h.extra.slots_eq⟩, hcapacity⟩
  refine ⟨h.extra.tidy, (stillOpen_eq h.extra.opened_eq).symm, h.extra.slots_eq, hcapacity,
    h.roster.slots_le, ?_⟩
  intro i hi
  have hlt := h.roster.pool_valid.capacity_lt
  rw [UInt32.toNat_ofNat']
  exact Nat.mod_eq_of_lt (Nat.lt_of_le_of_lt (Nat.le_trans hi h.roster.slots_le) hlt)

end Bench

/-! ### The callbacks of a simulator -/

namespace Sim

/-- The callbacks are kept tidily, and they are those that have been subscribed and not removed. -/
structure Booked (s : Sim) : Prop where
  tidy : s.callbacks.Tidy
  balance : s.removed + s.callbacks.live = s.registered
  orders_nodup : (s.callbacks.values.map (·.order)).Nodup
  order_lt : ∀ c ∈ s.callbacks.values, c.order < s.nextOrder

theorem booked_initial : initial.Booked :=
  ⟨SlotMap.tidy_empty, rfl, List.nodup_nil, by simp [initial, SlotMap.values]⟩

variable {s s' s'' : Sim}

theorem Booked.of_untouched (h : s.Booked) (hsame : Untouched s s') : s'.Booked := by
  obtain ⟨⟨hcallbacks, hnext, hregistered, hremoved⟩, -⟩ := hsame
  refine ⟨?_, ?_, ?_, ?_⟩
  · rw [hcallbacks]
    exact h.tidy
  · rw [hremoved, hcallbacks, hregistered]
    exact h.balance
  · rw [hcallbacks]
    exact h.orders_nodup
  · rw [hcallbacks, hnext]
    exact h.order_lt

/-- **A subscription** takes the next number. -/
theorem Booked.subscribe (h : s.Booked) (signal : SignalId) (condition : Condition)
    (key : RegistrationKey) : (s.subscribe signal condition key).2.Booked := by
  have hvalues := SlotMap.values_insert_perm h.tidy
    (⟨signal, condition, key, s.nextOrder⟩ : Callback)
  refine ⟨SlotMap.insert_tidy h.tidy _, ?_, ?_, ?_⟩
  · show s.removed + (s.callbacks.insert _).2.live = s.registered + 1
    rw [SlotMap.live_insert, ← Nat.add_assoc, h.balance]
  · refine (hvalues.map _).nodup_iff.mpr (List.nodup_cons.mpr ⟨?_, h.orders_nodup⟩)
    intro hmem
    obtain ⟨c, hc, horder⟩ := List.mem_map.mp hmem
    exact Nat.lt_irrefl _ (horder ▸ h.order_lt c hc)
  · intro c hc
    rcases List.mem_cons.mp (hvalues.mem_iff.mp hc) with rfl | hc
    · exact Nat.lt_succ_self _
    · exact Nat.lt_succ_of_lt (h.order_lt c hc)

/-- **The end of a subscription** takes out its callback. -/
theorem Booked.unsubscribe (h : s.Booked) {handle : CallbackHandle}
    (hs : s.unsubscribe handle = .ok s') : s'.Booked := by
  obtain ⟨c, hget, rfl⟩ := get?_of_unsubscribe hs
  have hvalues := SlotMap.values_erase_perm hget
  have hlive := h.tidy.live_erase_add_one hget
  have horders := (hvalues.map (·.order)).nodup_iff.mp h.orders_nodup
  refine ⟨SlotMap.erase_tidy h.tidy hget, ?_, (List.nodup_cons.mp horders).2, ?_⟩
  · have hbalance := h.balance
    show s.removed + 1 + (s.callbacks.erase handle).live = s.registered
    omega
  · exact fun d hd => h.order_lt d (hvalues.mem_iff.mpr (List.mem_cons_of_mem c hd))

/-- From `s` to `s'` callbacks have only been subscribed, and slots made as they were needed. -/
structure Fills (s s' : Sim) : Prop where
  booked : s.Booked → s'.Booked
  live_le : s.callbacks.live ≤ s'.callbacks.live
  slots_eq : s.Booked →
    s'.callbacks.slots.size = max s.callbacks.slots.size s'.callbacks.live

theorem respectedByStarts_fills : RespectedByStarts Fills where
  refl := fun s => ⟨id, Nat.le_refl _, fun h => (Nat.max_eq_left h.tidy.live_le).symm⟩
  trans := by
    intro s s' s'' h h'
    refine ⟨fun hs => h'.booked (h.booked hs), Nat.le_trans h.live_le h'.live_le, fun hs => ?_⟩
    have hlive := h'.live_le
    rw [h'.slots_eq (h.booked hs), h.slots_eq hs]
    omega
  subscribe := by
    intro s signal condition key
    refine ⟨fun h => h.subscribe signal condition key, ?_, fun h =>
      SlotMap.size_insert_of_tidy h.tidy _⟩
    exact Nat.le_of_lt (Nat.lt_of_lt_of_eq (Nat.lt_succ_self _) (SlotMap.live_insert _ _).symm)

theorem Fills.of_untouched (hsame : Untouched s s') : Fills s s' := by
  have hcallbacks := hsame.callbacks
  refine ⟨fun h => h.of_untouched hsame, ?_, fun h => ?_⟩
  · rw [hcallbacks]
  · rw [hcallbacks]
    exact (Nat.max_eq_left h.tidy.live_le).symm

/-- From `s` to `s'` callbacks have only been removed. -/
structure Drops (s s' : Sim) : Prop where
  booked : s.Booked → s'.Booked
  live_le : s'.callbacks.live ≤ s.callbacks.live
  slots_eq : s'.callbacks.slots.size = s.callbacks.slots.size

theorem respectedByEnds_drops : RespectedByEnds Drops where
  refl := fun s => ⟨id, Nat.le_refl _, rfl⟩
  trans := fun h h' => ⟨fun hs => h'.booked (h.booked hs), Nat.le_trans h'.live_le h.live_le,
    h'.slots_eq.trans h.slots_eq⟩
  unsubscribe := by
    intro s s' handle hs
    obtain ⟨c, hget, rfl⟩ := get?_of_unsubscribe hs
    exact ⟨fun h => h.unsubscribe hs, Nat.sub_le _ _, SlotMap.size_erase _ _⟩

/-- The largest number of callbacks in some states. -/
def mostLive (states : List Sim) : Nat := peak (states.map (·.callbacks.live))

@[simp] theorem mostLive_nil : mostLive [] = 0 := rfl

@[simp] theorem mostLive_cons (s : Sim) (states : List Sim) :
    mostLive (s :: states) = max s.callbacks.live (mostLive states) := rfl

@[simp] theorem mostLive_append (states states' : List Sim) :
    mostLive (states ++ states') = max (mostLive states) (mostLive states') := by
  rw [mostLive, List.map_append, peak_append, mostLive, mostLive]

/-- From `s` to `s'`, by way of the states `between`, slots have been made as they were needed. -/
structure Passes (s : Sim) (between : List Sim) (s' : Sim) : Prop where
  booked : s'.Booked
  between_booked : ∀ m ∈ between, m.Booked
  slots_eq : s'.callbacks.slots.size =
    max s.callbacks.slots.size (max (mostLive between) s'.callbacks.live)

/-- The same, where there have not been more callbacks in `s` than later on. -/
structure Rises (s : Sim) (between : List Sim) (s' : Sim) : Prop extends Passes s between s' where
  live_le : s.callbacks.live ≤ max (mostLive between) s'.callbacks.live

theorem Fills.rises (h : Fills s s') (hs : s.Booked) : Rises s [] s' := by
  refine ⟨⟨h.booked hs, by simp, ?_⟩, ?_⟩
  · rw [h.slots_eq hs, mostLive_nil, Nat.zero_max]
  · rw [mostLive_nil, Nat.zero_max]
    exact h.live_le

theorem Drops.passes (h : Drops s s') (hs : s.Booked) : Passes s [] s' := by
  have hlive := h.live_le
  have hle := hs.tidy.live_le
  refine ⟨h.booked hs, by simp, ?_⟩
  rw [h.slots_eq, mostLive_nil]
  omega

/-- The state that a way starts from can be counted in. -/
theorem Passes.rises {between : List Sim} (h : Passes s between s') (hs : s.Booked) :
    Rises s (s :: between) s' := by
  have hle := hs.tidy.live_le
  refine ⟨⟨h.booked, List.forall_mem_cons.mpr ⟨hs, h.between_booked⟩, ?_⟩, ?_⟩
  · rw [h.slots_eq, mostLive_cons]
    omega
  · rw [mostLive_cons]
    omega

theorem Passes.trans {between between' : List Sim} (h : Passes s between s')
    (h' : Rises s' between' s'') : Passes s (between ++ between') s'' := by
  have hslots := h.slots_eq
  have hlive := h'.live_le
  refine ⟨h'.booked, fun m hm => ?_, ?_⟩
  · exact (List.mem_append.mp hm).elim (h.between_booked m) (h'.between_booked m)
  · rw [h'.slots_eq, mostLive_append]
    omega

theorem Rises.trans {between between' : List Sim} (h : Rises s between s')
    (h' : Rises s' between' s'') : Rises s (between ++ between') s'' := by
  have hlive := h.live_le
  have hlive' := h'.live_le
  refine ⟨h.toPasses.trans h', ?_⟩
  rw [mostLive_append]
  omega

end Sim

open Sim

namespace Bench

variable {T : Type} [Scheduler T]

/-- **Steps and runs** fill the table with a flush, and after that only take callbacks out. -/
theorem traced_rises : TracedByCalls (T := T) Fault.Any (·.native.Booked) (·.native.Booked)
    (fun b calls b' => Rises b.native (calls.map (·.bench.native)) b'.native) where
  weaken := id
  trans := by
    intro b b' b'' calls calls' h h'
    rw [List.map_append]
    exact h.trans h'
  aside := fun h haside => ⟨h.of_untouched haside.sim, (Fills.of_untouched haside.sim).rises h⟩
  flush := fun h order => leads_of_upholds ((flush_respected respectedByStarts_fills _ order).imp
    fun _ hquiet => ⟨hquiet.native.booked h, hquiet.native.rises h⟩)
  passed := by
    intro b handle h _ callback value
    exact ((respectedByStarts_fills.refl _).rises h).toPasses.rises h
  heard := by
    intro b handle h _ callback value
    have hreport := deliver_respected respectedByEnds_drops
      (b.onSim fun s => { s with delivered := s.delivered + 1 }) callback.key value
    refine leads_of_upholds (hreport.imp fun b' hdrops => ?_)
    have hcounted : Drops b.native { b.native with delivered := b.native.delivered + 1 } :=
      ⟨fun hs => ⟨hs.tidy, hs.balance, hs.orders_nodup, hs.order_lt⟩, Nat.le_refl _, rfl⟩
    have hboth := respectedByEnds_drops.trans hcounted hdrops
    exact ⟨hboth.booked h, (hboth.passes h).rises h⟩

/-- **An operation of the host** makes slots as they are needed. -/
theorem host_passes {b b' : SimBench T} (h : b.native.Booked) {op : HostOp}
    (hb : b.host op = .ok b') :
    Passes b.native ((b.calls op).map (·.bench.native)) b'.native := by
  have haside : ∀ b', Aside b b' → Passes b.native [] b'.native :=
    fun b' haside => ((Fills.of_untouched haside.sim).rises h).toPasses
  cases op with
  | context op =>
    rcases (perform_startsOrEnds respectedByStarts_fills respectedByEnds_drops b op).final hb with
      hfills | hdrops
    · exact (hfills.rises h).toPasses
    · exact hdrops.passes h
  | addSignal name initial => exact haside b' (host_aside rfl hb)
  | schedule time signal value => exact haside b' (host_aside rfl hb)
  | scheduleClock signal half cycles => exact haside b' (host_aside rfl hb)
  | _ => exact (traced_rises.byChanges.traced.drives h rfl hb).2.toPasses

end Bench

/-! ### Runs of a simulator -/

/-- What can be done with a simulator. -/
inductive SimAct (T : Type) where
  /-- A host performs an operation, with a context in whatever state. -/
  | host (turn : SimTurn T)
  /-- A callback is subscribed past all contexts. -/
  | subscribe (signal : SignalId) (condition : Condition) (key : RegistrationKey)
  /-- A callback is removed past all contexts. -/
  | unsubscribe (handle : CallbackHandle)

namespace Sim

variable {T : Type} [Scheduler T]

def act (s : Sim) : SimAct T → Except Fault Sim
  | .host t => s.turn t
  | .subscribe signal condition key => .ok (s.subscribe signal condition key).2
  | .unsubscribe handle => s.unsubscribe handle

def actAll : List (SimAct T) → Sim → Except Fault Sim
  | [], s => .ok s
  | a :: rest, s =>
    match s.act a with
    | .error f => .error f
    | .ok s => actAll rest s

/-- The states in the course of an act in which the turn of a callback comes. -/
def within (s : Sim) : SimAct T → List Sim
  | .host t => ((t.on s).calls t.op).map (·.bench.native)
  | _ => []

/-- The states in which the callbacks of a simulator are counted: before and after every act, and
whenever the turn of a callback comes. -/
def counted : List (SimAct T) → Sim → List Sim
  | [], s => [s]
  | a :: rest, s =>
    s :: (s.within a ++
      match s.act a with
      | .error _ => []
      | .ok s => counted rest s)

theorem act_passes {s s' : Sim} (h : s.Booked) {a : SimAct T} (hs : s.act a = .ok s') :
    Passes s (s.within a) s' := by
  cases a with
  | host t =>
    obtain ⟨b, hb, rfl⟩ := turn_eq_ok hs
    exact Bench.host_passes (b := t.on s) h hb
  | subscribe signal condition key =>
    obtain rfl := Except.ok.inj hs
    have hfills := respectedByStarts_fills.subscribe s signal condition key
    exact (hfills.rises h).toPasses
  | unsubscribe handle =>
    have hdrops : Drops s s' := respectedByEnds_drops.unsubscribe hs
    exact hdrops.passes h

/-- The counted states begin with the present one. -/
theorem live_le_mostLive_counted (acts : List (SimAct T)) (s : Sim) :
    s.callbacks.live ≤ mostLive (counted acts s) := by
  cases acts with
  | nil => exact Nat.le_max_left _ _
  | cons a rest => exact Nat.le_max_left _ _

/-- **One act after another** makes slots as they are needed. -/
theorem acts_counted (acts : List (SimAct T)) :
    ∀ s s' : Sim, s.Booked → actAll acts s = .ok s' →
      s'.Booked ∧ (∀ m ∈ counted acts s, m.Booked) ∧
        s'.callbacks.slots.size = max s.callbacks.slots.size (mostLive (counted acts s)) := by
  induction acts with
  | nil =>
    rintro s s' h ⟨⟩
    refine ⟨h, by simpa [counted] using h, ?_⟩
    rw [counted, mostLive_cons, mostLive_nil, Nat.max_zero, Nat.max_eq_left h.tidy.live_le]
  | cons a rest ih =>
    intro s s' h hrun
    rw [actAll] at hrun
    rw [counted]
    cases ha : s.act a with
    | error f =>
      rw [ha] at hrun
      cases hrun
    | ok s₁ =>
      simp only [ha] at hrun ⊢
      have hpasses := act_passes h ha
      obtain ⟨hs', hrest, hslots⟩ := ih s₁ s' hpasses.booked hrun
      refine ⟨hs', ?_, ?_⟩
      · intro m hm
        rcases List.mem_cons.mp hm with rfl | hm
        · exact h
        · exact (List.mem_append.mp hm).elim (hpasses.between_booked m) (hrest m)
      -- the state before the act is counted too, and holds no more than there are slots
      · have hle := h.tidy.live_le
        have hnow := live_le_mostLive_counted rest s₁
        rw [hslots, hpasses.slots_eq, mostLive_cons, mostLive_append]
        omega

/-- The storage of a simulator that has come to `s` by some acts. -/
structure Stored (acts : List (SimAct T)) (s : Sim) : Prop where
  booked : s.Booked
  /-- So they were all the time. -/
  counted_booked : ∀ m ∈ counted acts initial, m.Booked
  slots_eq : s.callbacks.slots.size = mostLive (counted acts initial)

/-- **Every run** of a new simulator keeps its storage as small as it can be. -/
theorem stored_after {acts : List (SimAct T)} {s : Sim} (hrun : actAll acts initial = .ok s) :
    Stored acts s := by
  obtain ⟨hs, hcounted, hslots⟩ := acts_counted acts initial s booked_initial hrun
  refine ⟨hs, hcounted, ?_⟩
  rw [hslots]
  exact Nat.zero_max _

end Sim

/-! ### Both tables -/

/-- **Pooled storage grows to its high-water mark**, and no further: the arena of a context on any
native layer, and the callbacks of a simulator with any contexts. -/
theorem slots_highWater :
    (∀ {N T σ η : Type} [NativeLayer N σ η] [Scheduler T] [DecidableEq σ] [LogText σ] [LogText η]
      {b₀ b : RecordedBench N T σ η} {turns : List (Turn N T σ)}, b₀.Fresh →
      Bench.after turns b₀ = .ok b → Bench.Stored b₀ b) ∧
    ∀ {T : Type} [Scheduler T] {acts : List (SimAct T)} {s : Sim},
      Sim.actAll acts initial = .ok s → Sim.Stored acts s :=
  ⟨fun hfresh hrun => Bench.stored_after hfresh hrun, fun hrun => Sim.stored_after hrun⟩

/-- Two ids; a registration is cancelled and another takes its slot, and one is refused. -/
def slotReused : List (Turn Switchboard ScriptedScheduler Pin) :=
  [.op (.waitNow ⟨0⟩ .rising ⟨1⟩), .op (.watch ⟨1⟩ .either ⟨2⟩), .op (.cancel ⟨0, 0⟩),
    .op (.watch ⟨0⟩ .falling ⟨3⟩), .op (.addWait ⟨1⟩ .rising ⟨4⟩),
    .op (.flush (.recorded Pin)), .op .shutdown]

/-- A callback of a context fires, and another takes its slot, while one that no context knows of
stays until it is removed. -/
def callbackReused (idle waiting : Mux SignalId CallbackHandle) :
    List (SimAct ScriptedScheduler) :=
  let scheduler := ScriptedScheduler.failingAt [1] ⟨"", ""⟩
  [.host ⟨idle, scheduler, #[], .addSignal "a" .zero⟩,
    .host ⟨idle, scheduler, #[], .context (.waitNow ⟨0⟩ .rising ⟨1⟩)⟩,
    .subscribe ⟨0⟩ .high ⟨7, 0⟩, .host ⟨waiting, scheduler, #[], .schedule ⟨5⟩ ⟨0⟩ .one⟩,
    .host ⟨waiting, scheduler, #[], .step (.recorded _)⟩,
    .host ⟨idle, scheduler, #[], .context (.watch ⟨0⟩ .either ⟨2⟩)⟩, .unsubscribe ⟨1, 0⟩]

theorem slots_highWater_reused :
    (∃ b₀ b : RecordedBench Switchboard ScriptedScheduler Pin Nat, b₀.Fresh ∧
      Bench.after slotReused b₀ = .ok b ∧ b.mux.isPoisoned = true ∧
      b.native.calls.map (·.opens) = [true, true, false, true, false, false] ∧
      b.mux.subscriptions.arena.slots.size = 2 ∧ Bench.Stored b₀ b) ∧
    ∃ (idle : Mux SignalId CallbackHandle) (waiting : SimBench ScriptedScheduler) (s : Sim),
      Sim.actAll (callbackReused idle waiting.mux) initial = .ok s ∧
      (Sim.counted (callbackReused idle waiting.mux) initial).map (·.callbacks.live) =
        [0, 0, 1, 2, 2, 2, 1, 2, 1] ∧
      s.callbacks.slots.size = 2 ∧ Sim.Stored (callbackReused idle waiting.mux) s := by
  constructor
  · obtain ⟨b₀, b, hfresh, hrun, hpoisoned, hcalls, hslots⟩ :
        ∃ b₀ b : RecordedBench Switchboard ScriptedScheduler Pin Nat, b₀.Fresh ∧
          Bench.after slotReused b₀ = .ok b ∧ b.mux.isPoisoned = true ∧
          b.native.calls.map (·.opens) = [true, true, false, true, false, false] ∧
          b.mux.subscriptions.arena.slots.size = 2 :=
      ⟨_, _, ⟨{ pool := { capacity := 2 } }, [], _, {}, .failingAt [] ⟨"", ""⟩, rfl, rfl⟩, rfl, rfl,
        rfl, rfl⟩
    exact ⟨b₀, b, hfresh, hrun, hpoisoned, hcalls, hslots, slots_highWater.1 hfresh hrun⟩
  · obtain ⟨idle, waiting, s, -, -, hrun, hcounted, hslots⟩ :
        ∃ (idle : Mux SignalId CallbackHandle) (waiting : SimBench ScriptedScheduler) (s : Sim),
          Mux.ofConfig { pool := { capacity := 2 } } [] = .ok idle ∧
          (⟨idle, initial, .failingAt [] ⟨"", ""⟩, #[]⟩ : SimBench ScriptedScheduler).waitNow ⟨0⟩
            .rising ⟨1⟩ = .done ⟨0, 0⟩ waiting ∧
          Sim.actAll (callbackReused idle waiting.mux) initial = .ok s ∧
          (Sim.counted (callbackReused idle waiting.mux) initial).map (·.callbacks.live) =
            [0, 0, 1, 2, 2, 2, 1, 2, 1] ∧
          s.callbacks.slots.size = 2 :=
      ⟨_, _, _, rfl, rfl, rfl, rfl, rfl⟩
    exact ⟨idle, waiting, s, hrun, hcounted, hslots, slots_highWater.2 hrun⟩

end EdgeWait
