/-
A simulator that attends to a context, and one task of the context.

* `hostAll_attended` — in every state that a context and its simulator can reach, the simulator
  serves the roster of the context and nobody else (`Bench.Attended`);
* `applyChange_tends` — a change hands the task over once for each of its registrations that the
  value is for, and ends those of them that are one-shot (`Bench.Tends`);
* `flush_tends`, `watch_tends` — a wait of the task that is flushed becomes a registration, and so
  does a watch.

Design notes: registrations of other tasks come and go with the changes of their signals.  All that
is kept of them is that they leave an id free, so the task can always be registered again.
-/
import EdgeWait.Proofs.Firing
import EdgeWait.Proofs.Immediacy

namespace EdgeWait

open Sim

/-! ### Whatever the host does -/

namespace Bench

section Attended

variable {T : Type} {c : Sim} {L : List SimHolding} {b b' : SimBench (SchedulerRecord T)}

/-- The callbacks of the simulator are those of the roster of the context. -/
def Attended (b : SimBench (SchedulerRecord T)) : Prop := ∃ c L, b.Tracked (Hosts c) L

/-- A roster without labels. -/
theorem Tracked.side (h : b.Tracked (Hosts c) L) : Side c (fun _ => none) b L :=
  ⟨h, fun _ _ => rfl⟩

/-- What has nothing to do with callbacks does not matter. -/
theorem Attended.aside (h : Attended b) (haside : Aside b b') : Attended b' := by
  obtain ⟨c, L, htracked⟩ := h
  obtain ⟨hcarries, -⟩ := htracked.extra
  refine ⟨b'.native, L, ?_, ⟨?_, ?_, ?_, ⟨rfl, rfl, rfl, rfl⟩⟩, rfl⟩
  · rw [haside.mux]
    exact htracked.roster
  · rw [haside.mux, haside.issued]
    exact hcarries.serves.congr haside.sim.callbacks haside.sim.nextOrder
  · rw [haside.issued]
    exact ⟨hcarries.numbered.sorted, hcarries.numbered.issued_at⟩
  · rw [haside.mux, haside.issued]
    exact hcarries.counted

theorem New.attended (h : New b) : Attended b := by
  obtain ⟨config, picks, mux, sim, scheduler, hmux, hsim, -, -, -, rfl⟩ := h
  obtain ⟨policy, -, rfl⟩ := Mux.ofConfig_eq hmux
  obtain ⟨hvalid, -, hfree⟩ := IdPool.pool_valid config.pool picks
  exact ⟨sim, [], Subscriptions.roster_ofPool hvalid hfree, carries_start hsim, rfl⟩

variable [Scheduler T]

theorem Attended.perform (h : Attended b) (op : Op SignalId)
    (hb : (b.perform op).final = .ok b') : Attended b' := by
  obtain ⟨c, L, htracked⟩ := h
  obtain ⟨new, hperformed⟩ := perform_roster (tracking_hosts c) htracked hb
  exact ⟨c, _, hperformed.tracked⟩

theorem traced_attended :
    TracedByCalls (T := SchedulerRecord T) Fault.Any Attended Attended fun _ _ _ => True where
  weaken := id
  trans := fun _ _ => trivial
  aside := fun h haside => ⟨h.aside haside, trivial⟩
  flush := fun {b} h order => leads_of_upholds (Outcome.upholds_of_final
    (fun b' hb => ⟨h.perform (.flush order) (by rw [Bench.perform, final_andThen_done, hb]),
      trivial⟩) fun _ _ => trivial)
  passed := fun _ _ _ _ => trivial
  heard := by
    intro b handle h _ callback value
    have hcounted : Attended (b.onSim fun s => { s with delivered := s.delivered + 1 }) := by
      obtain ⟨c, L, htracked⟩ := h
      exact ⟨_, L, (htracked.side.onSim plain_delivered).tracked⟩
    exact leads_of_upholds (Outcome.upholds_of_final (fun b' hb =>
      ⟨hcounted.perform (.deliver callback.key value)
        (by rw [Bench.perform, final_andThen_done, hb]), trivial⟩) fun _ _ => trivial)

theorem Attended.host (h : Attended b) {op : HostOp} (hb : b.host op = .ok b') : Attended b' := by
  cases op with
  | context op => exact h.perform op hb
  | addSignal name initial => exact h.aside (host_aside rfl hb)
  | schedule time signal value => exact h.aside (host_aside rfl hb)
  | scheduleClock signal half cycles => exact h.aside (host_aside rfl hb)
  | _ => exact (traced_attended.byChanges.traced.drives h rfl hb).1

/-- **Whatever a host does** with a context and its simulator, the simulator serves the context. -/
theorem hostAll_attended (ops : List HostOp) :
    ∀ b b' : SimBench (SchedulerRecord T), Attended b → hostAll ops b = .ok b' → Attended b' :=
  hostAll_induction (fun _ _ _ h hop => h.host hop) ops

end Attended

end Bench

/-! ### What is asked for on one signal -/

namespace Demand

variable {σ : Type}

/-- A change to `v` is one that the demand is for. -/
def hears (v : Logic) (d : Demand σ) : Bool := d.edge.condition.accepts v

/-- A change to `v` is all that the demand is for. -/
def isMet (v : Logic) (d : Demand σ) : Bool := d.hears v && decide (d.mode = .oneShot)

/-- The lists that are handed over when a signal changes to these values in turn. -/
def told : List Logic → List (Demand σ) → List (List TaskId)
  | [], _ => []
  | v :: vs, ds => (ds.filter (·.hears v)).map (·.tasks) ++ told vs (ds.filter (!·.isMet v))

/-- The demands that are left after that. -/
def unmet : List Logic → List (Demand σ) → List (Demand σ)
  | [], ds => ds
  | v :: vs, ds => unmet vs (ds.filter (!·.isMet v))

theorem told_append (vs ws : List Logic) :
    ∀ ds : List (Demand σ), told (vs ++ ws) ds = told vs ds ++ told ws (unmet vs ds) := by
  induction vs with
  | nil => exact fun ds => rfl
  | cons v vs ih =>
    intro ds
    rw [List.cons_append, told, told, unmet, ih, List.append_assoc]

theorem unmet_append (vs ws : List Logic) :
    ∀ ds : List (Demand σ), unmet (vs ++ ws) ds = unmet ws (unmet vs ds) := by
  induction vs with
  | nil => exact fun ds => rfl
  | cons v vs ih => exact fun ds => ih _

/-- A demand that lasts is told of every change that it is for. -/
theorem told_of_persistent {d : Demand σ} (hmode : d.mode = .persistent) (vs : List Logic) :
    told vs [d] = List.replicate (vs.countP fun v => d.edge.condition.accepts v) d.tasks := by
  induction vs with
  | nil => rfl
  | cons v vs ih =>
    have hstays : [d].filter (!·.isMet v) = [d] := by simp [isMet, hmode]
    rw [told, hstays, ih, List.filter_singleton, List.countP_cons, Nat.add_comm,
      List.replicate_add, hears]
    cases d.edge.condition.accepts v <;> rfl

end Demand

namespace Bench

variable {T : Type}

/-- From `b` to `b'` the lists with the task that have been handed over are these. -/
def Wakes (task : TaskId) (b : SimBench (SchedulerRecord T)) (lists : List (List TaskId))
    (b' : SimBench (SchedulerRecord T)) : Prop :=
  ∃ calls, b'.resumed = b.resumed ++ calls ∧ calls.filter (task ∈ ·) = lists

variable {task : TaskId} {signal : SignalId} {c : Sim} {ds : List (Demand SignalId)}
  {lists lists' : List (List TaskId)} {b b' b'' : SimBench (SchedulerRecord T)}
  {L : List SimHolding}

theorem Wakes.of_scheduler (h : b'.scheduler = b.scheduler) : Wakes task b [] b' :=
  ⟨[], by rw [resumed_of_scheduler h, List.append_nil], rfl⟩

theorem Wakes.trans (h : Wakes task b lists b') (h' : Wakes task b' lists' b'') :
    Wakes task b (lists ++ lists') b'' := by
  obtain ⟨calls, heq, rfl⟩ := h
  obtain ⟨calls', heq', rfl⟩ := h'
  exact ⟨calls ++ calls', by rw [heq', heq, List.append_assoc], List.filter_append ..⟩

variable [Scheduler T]

/-- The registrations of the task are all on the signal, and have been made for `ds`.  The others
leave an id free. -/
structure Tends (task : TaskId) (signal : SignalId) (c : Sim) (ds : List (Demand SignalId))
    (b : SimBench (SchedulerRecord T)) (L : List SimHolding) : Prop extends Willing b where
  tracked : b.Tracked (Hosts c) L
  own : (L.filter (task ∈ ·.registration.tasks)).map (·.registration.demand) = ds
  on_signal : ∀ d ∈ ds, d.signal = signal
  room : (L.filter (task ∉ ·.registration.tasks)).length < b.mux.subscriptions.pool.capacity

/-- What does not change the registrations does not matter to those of the task. -/
theorem Tends.keep {c' : Sim} (h : Tends task signal c ds b L) (htracked : b'.Tracked (Hosts c') L)
    (hwilling : Willing b')
    (hcapacity : b'.mux.subscriptions.pool.capacity = b.mux.subscriptions.pool.capacity) :
    Tends task signal c' ds b' L :=
  ⟨hwilling, htracked, h.own, h.on_signal, by rw [hcapacity]; exact h.room⟩

theorem Tends.onSim (h : Tends task signal c ds b L) {f : Sim → Sim} (hf : Plain f) :
    Tends task signal (f c) ds (b.onSim f) L :=
  h.keep (h.tracked.side.onSim hf).tracked ⟨h.live, h.scheduler⟩ rfl

/-- **A change** hands the task over for each demand on the signal that it is one for. -/
theorem applyChange_tends (h : Tends task signal c ds b L) {changed : SignalId} {value : Logic}
    {before : Signal} (hbefore : b.native.signal? changed = some before)
    (hchange : before.value ≠ value) :
    ∃ b' L', b.applyChange changed value = .done () b' ∧ Keeps b b' ∧
      Tends task signal (c.withValue changed value)
        (ds.filter fun d => !(decide (d.signal = changed) && d.isMet (b.mux.observe value))) b' L' ∧
      Wakes task b ((ds.filter fun d =>
        decide (d.signal = changed) && d.hears (b.mux.observe value)).map (·.tasks)) b' := by
  obtain ⟨b', heq, hreports, -⟩ :=
    applyChange_fires h.tracked.side h.toWilling hbefore hchange
  have hkeeps := hreports.keeps
  -- what is chosen by its demand is chosen among the demands
  have hchosen : ∀ q : Demand SignalId → Bool,
      ((L.filter fun e => q e.registration.demand).filter (task ∈ ·.registration.tasks)).map
        (·.registration.demand) = ds.filter q := by
    intro q
    rw [List.filter_comm, ← h.own, List.filter_map]
    rfl
  refine ⟨b', _, heq, hkeeps, ⟨hreports.willing, hreports.side.tracked, ?_, ?_, ?_⟩, _,
    hreports.resumed, ?_⟩
  · exact hchosen fun d => !(decide (d.signal = changed) && d.isMet (b.mux.observe value))
  · exact fun d hd => h.on_signal d (List.mem_of_mem_filter hd)
  · rw [hkeeps.capacity]
    exact Nat.lt_of_le_of_lt (List.filter_sublist.filter _).length_le h.room
  · have hfired : fired (fun _ => none) (isOn changed) (b.mux.observe value) L =
        L.filter fun e => decide (e.registration.demand.signal = changed) &&
          e.registration.demand.hears (b.mux.observe value) := by
      rw [fired, List.filter_filter]
      exact List.filter_congr fun e _ => Bool.and_comm _ _
    rw [← hchosen, List.map_map, List.filter_map, hfired]
    rfl

/-! ### New registrations of the task -/

/-- A registration has been made for the task. -/
theorem Tends.extend (h : Tends task signal c ds b L) {e : SimHolding}
    (htracked : b'.Tracked (Hosts c) (L ++ [e])) (hwilling : Willing b')
    (hcapacity : b'.mux.subscriptions.pool.capacity = b.mux.subscriptions.pool.capacity)
    {edge : Edge} {mode : Mode} (hdemand : e.registration.demand = ⟨signal, edge, [task], mode⟩) :
    Tends task signal c (ds ++ [⟨signal, edge, [task], mode⟩]) b' (L ++ [e]) := by
  have htasks : e.registration.tasks = [task] := congrArg Demand.tasks hdemand
  have hown : task ∈ e.registration.tasks := by simp [htasks]
  refine ⟨hwilling, htracked, ?_, ?_, ?_⟩
  · rw [List.filter_append, List.map_append, h.own, List.filter_singleton]
    simp [hown, hdemand]
  · intro d hd
    rcases List.mem_append.mp hd with hd | hd
    · exact h.on_signal d hd
    · rw [List.mem_singleton.mp hd]
  · rw [hcapacity, List.filter_append, List.filter_singleton]
    simpa [hown] using h.room

/-- As long as the task has no registration, there is an id for one. -/
theorem Tends.length_lt (h : Tends task signal c [] b L) :
    L.length < b.mux.subscriptions.pool.capacity := by
  have hnone : L.filter (task ∈ ·.registration.tasks) = [] := List.map_eq_nil_iff.mp h.own
  have hothers : L.filter (task ∉ ·.registration.tasks) = L := by
    refine List.filter_eq_self.mpr fun e he => ?_
    simpa using List.filter_eq_nil_iff.mp hnone e he
  have hroom := h.room
  rwa [hothers] at hroom

/-- **A watch** is registered at once. -/
theorem watch_tends (h : Tends task signal c [] b L) (edge : Edge) :
    ∃ key b' L', b.watch signal edge task = .done key b' ∧ Keeps b b' ∧
      Tends task signal c [⟨signal, edge, [task], .persistent⟩] b' L' ∧ Wakes task b [] b' := by
  obtain ⟨b', hkeeps, hscheduler, hsubscribed⟩ :=
    registerSingle_side h.tracked.side h.live signal edge task .persistent 0
  have hlt := h.length_lt
  rw [watch]
  generalize b.registerSingle signal edge task .persistent = o at hsubscribed
  cases hsubscribed with
  | exhausted hfull => omega
  | done e _ hside _ _ hdemand hlive =>
    have hwilling : Willing b' := h.toWilling.keep (hlive.trans h.live.symm) hscheduler
    exact ⟨e.key, b', _, rfl, hkeeps, h.extend hside.tracked hwilling hkeeps.capacity hdemand,
      .of_scheduler hscheduler⟩

/-- **A flush** registers the task, if a wait of the task is all that is pending. -/
theorem flush_tends (h : Tends task signal c [] b L) {edge : Edge}
    {p : PendingWaits SignalId} (hp : p.isEmpty = true)
    (hpending : b.mux.pending = p.push signal edge task) (order : VisitOrder SignalId) :
    ∃ summary b' L', b.flush order = .done summary b' ∧
      Tends task signal c [⟨signal, edge, [task], .oneShot⟩] b' L' ∧ Wakes task b [] b' := by
  have hdemands : b.mux.pending.demands b.mux.policy order =
      [⟨signal, edge, [task], .oneShot⟩] := by
    rw [hpending]
    exact PendingWaits.demands_push hp ⟨signal, edge, task⟩ order
  obtain ⟨new, b', hside, -, hframe, -, hflushed⟩ :=
    flush_side h.tracked.side h.live order
  have hlt := h.length_lt
  generalize b.flush order = o at hflushed
  cases hflushed with
  | exhausted hfull =>
    rw [hdemands, List.length_singleton] at hfull
    omega
  | done summary _ hlive _ hnew =>
    rw [hdemands] at hnew
    obtain ⟨e, rfl, hdemand⟩ := List.map_eq_singleton_iff.mp hnew
    have hwilling : Willing b' := h.toWilling.keep (hlive.trans h.live.symm) hframe.scheduler
    exact ⟨summary, b', _, rfl, h.extend hside.tracked hwilling hframe.capacity hdemand,
      .of_scheduler hframe.scheduler⟩

end Bench

end EdgeWait
