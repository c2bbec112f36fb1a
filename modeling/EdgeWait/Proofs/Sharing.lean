/-
A context that shares its simulator with others.

The simulator has a callback for every holding of the context at work, and one for every holding of
the others.  What the context does adds and removes callbacks of its own; those of the others stay
what they are.

* `tracking_shares` — registrations and removals keep it so (`Shares`), as long as there is room for
  the callbacks of all contexts;
* `Guest.perform`, `traced_guest` — operations of the context and steps driven with it keep it so,
  whatever keys it is given (`Guest`);
* `Guest.host_fault` — none of them stops because a callback has been removed.

Design notes: indices of callbacks are 32-bit words, so there can be 2^32 callbacks at once and no
more.  A context has no more live registrations than its arena has slots, and no more slots than its
pool has ids; `Within` carries this bound through registrations, where the pool is out of sight.
-/
import EdgeWait.SharedBench
import EdgeWait.Proofs.Traces

namespace EdgeWait

open Subscriptions

/-! ### Callbacks of several contexts -/

namespace Sim

/-- The callbacks of the simulator are those of the roster of a context and of the holdings `F` of
others. -/
structure Shares (F L : List SimHolding) (arena : Arena SignalId) (s : Sim)
    (issued : List RegistrationKey) : Prop where
  covers : Covers (F ++ L) s
  arena_live : arena.live = L.length
  nextOrder : s.nextOrder = issued.length

/-- A relation that holds as long as the arena has no more slots than `capacity`. -/
def Within (capacity : Nat)
    (I : List SimHolding → Arena SignalId → Sim → List RegistrationKey → Prop)
    (L : List SimHolding) (arena : Arena SignalId) (s : Sim) (issued : List RegistrationKey) :
    Prop :=
  arena.slots.size ≤ capacity → I L arena s issued

variable {F L : List SimHolding} {arena : Arena SignalId} {s s' : Sim}
  {issued : List RegistrationKey} {capacity : Nat}

theorem Shares.congr (h : Shares F L arena s issued) (hcallbacks : s'.callbacks = s.callbacks)
    (hnext : s'.nextOrder = s.nextOrder) : Shares F L arena s' issued :=
  ⟨h.covers.congr hcallbacks hnext, h.arena_live, hnext.trans h.nextOrder⟩

/-- There is room for the callback of one more registration. -/
theorem Shares.room (h : Shares F L arena s issued) (harena : arena.Valid)
    (hsize : arena.slots.size ≤ capacity) (hroom : F.length + capacity < 2 ^ 32)
    (hfree : s.callbacks.free = []) : s.callbacks.slots.size < 2 ^ 32 := by
  have hcallbacks := h.covers.valid.size_eq
  have hlive := h.covers.live_eq
  have harenaLive := h.arena_live
  have hle := SlotMap.live_le_size harena
  rw [hfree, List.length_nil] at hcallbacks
  rw [List.length_append] at hlive
  omega

theorem Shares.opened {arena' : Arena SignalId} {key : RegistrationKey}
    {r : Registration SignalId} (h : Shares F L arena s issued)
    (hroom : s.callbacks.free = [] → s.callbacks.slots.size < 2 ^ 32)
    (hinsert : (key, arena') = arena.insert r) :
    Shares F (L ++ [⟨key, (s.subscribe r.signal r.condition key).1, r, issued.length⟩]) arena'
      (s.subscribe r.signal r.condition key).2 (issued ++ [key]) := by
  obtain rfl : arena' = (arena.insert r).2 := congrArg Prod.snd hinsert
  have hcovers : Covers (F ++ L ++ [⟨key, (s.subscribe r.signal r.condition key).1, r,
      issued.length⟩]) (s.subscribe r.signal r.condition key).2 :=
    h.covers.opened hroom h.nextOrder
  rw [List.append_assoc] at hcovers
  refine ⟨hcovers, ?_, ?_⟩
  · rw [List.length_append, ← h.arena_live]
    exact SlotMap.live_insert _ r
  · rw [List.length_append, ← h.nextOrder]
    rfl

theorem Shares.closed (h : Shares F L arena s issued) (hkeys : (L.map (·.key)).Nodup)
    {e : SimHolding} (he : e ∈ L) :
    Shares F (L.filter (·.key ≠ e.key)) (arena.erase e.key)
      { s with callbacks := s.callbacks.erase e.handle, removed := s.removed + 1 } issued := by
  have hcovers := h.covers.closed (List.mem_append_right F he)
  have hhandles := h.covers.handles_nodup
  rw [List.map_append, List.nodup_append'] at hhandles
  obtain ⟨-, hown, hacross⟩ := hhandles
  -- the handle is not one of the others
  have hothers : F.filter (·.handle ≠ e.handle) = F := by
    refine List.filter_eq_self.mpr fun f hf => decide_eq_true fun hc => ?_
    exact hacross (List.mem_map_of_mem hf) (hc ▸ List.mem_map_of_mem he)
  rw [List.filter_append, hothers, ← filter_key_eq_filter_handle hkeys hown he] at hcovers
  refine ⟨hcovers, ?_, h.nextOrder⟩
  calc (arena.erase e.key).live = L.length - 1 := congrArg (· - 1) h.arena_live
    _ = (L.filter (·.key ≠ e.key)).length :=
      Nat.sub_eq_of_eq_add (Subscriptions.length_filter_key hkeys he)

/-- **Registrations and removals** keep the callbacks of all contexts together. -/
theorem tracking_shares (hroom : F.length + capacity < 2 ^ 32) :
    Tracking (Within capacity (Shares F)) where
  opened := by
    intro L arena s issued key handle s' arena' r h harena _ _ hinsert hsubscribe hsize
    obtain ⟨rfl, rfl⟩ := Prod.mk.inj hsubscribe
    have hbefore : arena.slots.size ≤ capacity := by
      obtain rfl : arena' = (arena.insert r).2 := congrArg Prod.snd hinsert
      rw [SlotMap.size_insert] at hsize
      split at hsize <;> omega
    have hshares := h hbefore
    exact hshares.opened (hshares.room harena hbefore hroom) hinsert
  closed := by
    intro L arena s issued s' e h hkeys he _ hunsubscribe hsize
    rw [SlotMap.size_erase] at hsize
    have hshares := h hsize
    obtain rfl := Except.ok.inj
      ((hshares.covers.unsubscribe_eq (List.mem_append_right F he)).symm.trans hunsubscribe)
    exact hshares.closed hkeys he

theorem not_refuses_of_shares {f : Fault} :
    ¬ Bench.Refuses (Within capacity (Shares F)) capacity f := by
  rintro ⟨L, arena, s, issued, e, he, ⟨h, hsize⟩, hrefuses⟩
  cases ((h hsize).covers.unsubscribe_eq (List.mem_append_right F he)).symm.trans hrefuses

/-- Callbacks that two simulators have in common come up in the same order in both. -/
theorem filter_subscribers_congr {H H' : List SimHolding} (h : Covers H s) (h' : Covers H' s')
    {handles : List CallbackHandle}
    (hsame : ∀ handle ∈ handles, s'.callbacks.get? handle = s.callbacks.get? handle)
    (signal : SignalId) :
    (s'.subscribers signal).filter (·.1 ∈ handles) =
      (s.subscribers signal).filter (·.1 ∈ handles) := by
  refine eq_of_subscribed ((h'.subscribers_sorted signal).filter _)
    ((h.subscribers_sorted signal).filter _) fun p => ?_
  simp only [List.mem_filter, decide_eq_true_eq, h.mem_subscribers_iff, h'.mem_subscribers_iff]
  refine and_congr_left fun hp => ?_
  rw [hsame p.1 hp]

end Sim

open Sim

/-! ### A context among others -/

namespace Bench

variable {T : Type}

/-- A context with so many ids, on a simulator where others have the holdings `F`. -/
structure Guest (F : List SimHolding) (capacity : Nat) (b : SimBench T) : Prop where
  room : F.length + capacity < 2 ^ 32
  tracked : ∃ L, b.Tracked (Within capacity (Shares F)) L
  capacity : b.mux.subscriptions.pool.capacity = capacity

variable {F : List SimHolding} {capacity : Nat} {b b' : SimBench T}

/-- The roster of the context, and all callbacks of the simulator. -/
theorem Guest.shares (h : Guest F capacity b) : ∃ L, b.mux.subscriptions.Roster L ∧
    Shares F L b.mux.subscriptions.arena b.native b.log.issued := by
  obtain ⟨L, htracked⟩ := h.tracked
  refine ⟨L, htracked.roster, htracked.extra ?_⟩
  rw [← h.capacity]
  exact htracked.roster.slots_le

theorem Guest.congr (h : Guest F capacity b)
    (hsubs : b'.mux.subscriptions = b.mux.subscriptions)
    (hcallbacks : b'.native.callbacks = b.native.callbacks)
    (hnext : b'.native.nextOrder = b.native.nextOrder)
    (hissued : b'.log.issued = b.log.issued) : Guest F capacity b' := by
  obtain ⟨L, htracked⟩ := h.tracked
  refine ⟨h.room, ⟨L, ?_, ?_⟩, ?_⟩
  · rw [hsubs]
    exact htracked.roster
  · rw [hsubs, hissued]
    exact fun hsize => (htracked.extra hsize).congr hcallbacks hnext
  · rw [hsubs]
    exact h.capacity

theorem Guest.aside (h : Guest F capacity b) (haside : Aside b b') : Guest F capacity b' :=
  h.congr (by rw [haside.mux]) haside.sim.callbacks haside.sim.nextOrder haside.issued

variable [Scheduler T]

/-- **An operation of the context** leaves the callbacks of the others alone. -/
theorem Guest.perform (h : Guest F capacity b) {op : Op SignalId}
    (hb : (b.perform op).final = .ok b') : Guest F capacity b' := by
  obtain ⟨L, htracked⟩ := h.tracked
  obtain ⟨new, hperformed⟩ := perform_roster (tracking_shares h.room) htracked hb
  exact ⟨h.room, ⟨_, hperformed.tracked⟩, hperformed.capacity.trans h.capacity⟩

/-- Only a wait that is recorded twice stops an operation of the context. -/
theorem Guest.perform_fault (h : Guest F capacity b) {op : Op SignalId} {f : Fault}
    (hf : b.perform op = .fault f) : ∃ signal edge task, op = .addWait signal edge task ∧
      task ∈ b.mux.pending.waiting signal edge ∧ f = .duplicateWait task edge (logText signal) := by
  obtain ⟨L, htracked⟩ := h.tracked
  rcases Bench.perform_fault (tracking_shares h.room) htracked hf with hduplicate | hrefuses
  · exact hduplicate
  · rw [h.capacity] at hrefuses
    exact absurd hrefuses not_refuses_of_shares

/-- What an operation consists of leaves them alone, and stops on nothing. -/
theorem Guest.upholds (h : Guest F capacity b) {op : Op SignalId} {α : Type}
    {o : Outcome MuxError (SimBench T) α} {g : α → Answer}
    (hop : ∀ signal edge task, op ≠ .addWait signal edge task)
    (hperform : b.perform op = o.andThen fun a b => .done (g a) b) :
    o.Upholds Fault.Never (Guest F capacity) := by
  refine Outcome.upholds_of_final (fun b' hb => ?_) fun f hf => ?_
  · have hfinal : (b.perform op).final = .ok b' := by rw [hperform, final_andThen_done, hb]
    exact h.perform hfinal
  · have hfault : b.perform op = .fault f := hperform.trans (andThen_done_eq_fault.mpr hf)
    obtain ⟨signal, edge, task, hadd, -⟩ := h.perform_fault hfault
    exact hop signal edge task hadd

theorem Guest.flush (h : Guest F capacity b) (order : VisitOrder SignalId) :
    (b.flush order).Upholds Fault.Never (Guest F capacity) :=
  h.upholds (by simp) (Eq.refl (b.perform (.flush order)))

theorem Guest.deliver (h : Guest F capacity b) (key : RegistrationKey) (value : Logic) :
    (b.deliver key value).Upholds Fault.Never (Guest F capacity) :=
  h.upholds (by simp) (Eq.refl (b.perform (.deliver key value)))

/-- **Steps and runs** leave the callbacks of the others alone, from one call to the next. -/
theorem traced_guest : TracedByCalls (T := T) Fault.Never (Guest F capacity) (Guest F capacity)
    (fun _ calls _ => ∀ call ∈ calls, Guest F capacity call.bench) where
  weaken := id
  trans := fun h h' call hcall => (List.mem_append.mp hcall).elim (h call) (h' call)
  aside := fun h haside => ⟨h.aside haside, by simp⟩
  flush := fun h order => leads_of_upholds ((h.flush order).imp fun _ hb => ⟨hb, by simp⟩)
  passed := by
    intro b handle h _ callback value call hcall
    rw [List.mem_singleton.mp hcall]
    exact h
  heard := by
    intro b handle h _ callback value
    have hcounted : Guest F capacity (b.onSim fun s => { s with delivered := s.delivered + 1 }) :=
      h.congr rfl rfl rfl rfl
    refine leads_of_upholds ((hcounted.deliver callback.key value).imp fun _ hb =>
      ⟨hb, fun call hcall => ?_⟩)
    rw [List.mem_singleton.mp hcall]
    exact h

theorem Guest.host (h : Guest F capacity b) {op : HostOp} (hb : b.host op = .ok b') :
    Guest F capacity b' := by
  cases op with
  | context op => exact h.perform hb
  | addSignal name initial => exact h.aside (host_aside rfl hb)
  | schedule time signal value => exact h.aside (host_aside rfl hb)
  | scheduleClock signal half cycles => exact h.aside (host_aside rfl hb)
  | _ => exact (traced_guest.byChanges.traced.drives h rfl hb).1

end Bench

/-! ### What stops an operation of the host -/

/-- A word has overflowed. -/
def Fault.IsOverflow : Fault → Prop
  | addOverflow => True
  | mulOverflow => True
  | _ => False

theorem isOverflow_of_mulWord {a b : UInt64} {f : Fault} (h : mulWord a b = .error f) :
    f.IsOverflow := by
  rw [mulWord] at h
  split at h
  · cases h
  · obtain rfl := Except.error.inj h
    trivial

theorem isOverflow_of_addWord {a b : UInt64} {f : Fault} (h : addWord a b = .error f) :
    f.IsOverflow := by
  rw [addWord] at h
  split at h
  · cases h
  · obtain rfl := Except.error.inj h
    trivial

theorem SimTime.isOverflow_of_later {t period : SimTime} {k : UInt64} {f : Fault}
    (h : t.later period k = .error f) : f.IsOverflow := by
  rw [later] at h
  cases hmul : mulWord period.fs k with
  | error f' =>
    rw [hmul] at h
    obtain rfl := Except.error.inj h
    exact isOverflow_of_mulWord hmul
  | ok product =>
    rw [hmul] at h
    cases hadd : addWord t.fs product with
    | error f' =>
      simp only [bind, Except.bind, hadd] at h
      obtain rfl := Except.error.inj h
      exact isOverflow_of_addWord hadd
    | ok sum => simp [bind, Except.bind, hadd, pure, Except.pure] at h

/-- Only a time that does not fit its word stops the scheduling of a clock. -/
theorem Sim.isOverflow_of_scheduleEdges (signal : SignalId) (half : SimTime) {f : Fault} (n : Nat) :
    ∀ (k : Nat) (s : Sim), scheduleEdges signal half k n s = .fault f → f.IsOverflow := by
  induction n with
  | zero =>
    intro k s hf
    cases hf
  | succ n ih =>
    intro k s hf
    rw [scheduleEdges] at hf
    cases htime : s.now.later half (UInt64.ofNat k) with
    | error f' =>
      rw [htime] at hf
      obtain rfl := Outcome.fault.inj hf
      exact SimTime.isOverflow_of_later htime
    | ok time =>
      simp only [htime] at hf
      cases hone : s.schedule time signal (clockValue k) with
      | error e =>
        rw [hone] at hf
        cases hf
      | ok s₁ =>
        rw [hone] at hf
        exact ih (k + 1) s₁ hf

/-- **An operation of the host** stops when a wait is recorded twice, when a clock would go on for
too long, or when an event comes up whose signal does not exist, and never because of a callback. -/
theorem Bench.Guest.host_fault {T : Type} [Scheduler T] {F : List SimHolding} {capacity : Nat}
    {b : SimBench T} (h : Guest F capacity b) {op : HostOp} {f : Fault}
    (hf : b.host op = .error f) :
    (∃ signal edge task, op = .context (.addWait signal edge task) ∧
      task ∈ b.mux.pending.waiting signal edge ∧
      f = .duplicateWait task edge (logText signal)) ∨
    (∃ signal half cycles, op = .scheduleClock signal half cycles ∧ f.IsOverflow) ∨
    op.drives = true ∧ b.native.Misses f := by
  cases op with
  | context op =>
    obtain ⟨signal, edge, task, rfl, hwaiting, rfl⟩ :=
      h.perform_fault (Outcome.fault_of_final hf)
    exact .inl ⟨signal, edge, task, rfl, hwaiting, rfl⟩
  | addSignal name initial => cases hf
  | schedule time signal value => cases hf
  | scheduleClock signal half cycles =>
    refine .inr (.inl ⟨signal, half, cycles, rfl, ?_⟩)
    rw [Bench.host] at hf
    cases hedges : (b.native.scheduleClock signal half cycles).final with
    | error f' =>
      rw [hedges] at hf
      obtain rfl := Except.error.inj hf
      exact Sim.isOverflow_of_scheduleEdges signal half _ _ _ (Outcome.fault_of_final hedges)
    | ok s =>
      rw [hedges] at hf
      cases hf
  | _ =>
    obtain hnever | hmisses := traced_guest.byChanges.traced.drives_fault h rfl hf
    · exact hnever.elim
    · exact .inr (.inr ⟨rfl, hmisses⟩)

end EdgeWait
