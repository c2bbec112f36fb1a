/-
A context on a simulator, mirrored by a machine without batches.

For each holding of the roster, in its order, the machine without batches keeps one entry for each
of the tasks (`Mirrors`).

* `flush_follows`, `registerSingle_follows`, `cancel_follows`, `shutdown_follows` — the operations
  of the context keep it so;
* `applyChange_follows` — a change of value wakes the same tasks in both machines, in one order;
* `step_follows`, `runSteps_follows`, `runStepsUntil_follows` — so do steps of the simulator, unless
  they come to an event whose signal does not exist.

Design notes: a key can be issued again after its slot has been used 2^32 times.  What is known of a
registration for certain is its number, so a labelling of the numbers says which registrations have
been subscribed at once, and by which requests.
-/
import EdgeWait.Proofs.Reporting
import EdgeWait.Proofs.Unbatched
import Mathlib.Logic.Function.Basic

namespace EdgeWait

open Sim

/-! ### Entries of registrations -/

/-- The entries for the tasks of one registration. -/
def Demand.entries (request : Option Nat) (d : Demand SignalId) : List Entry :=
  d.tasks.map fun task => ⟨d.signal, d.edge, task, d.mode, request⟩

/-- The entries for a roster, where `label` tells the requests by the numbers of registrations. -/
def entriesOn (label : Nat → Option Nat) (L : List SimHolding) : List Entry :=
  L.flatMap fun e => e.registration.demand.entries (label e.number)

theorem entriesOn_append (label : Nat → Option Nat) (L L' : List SimHolding) :
    entriesOn label (L ++ L') = entriesOn label L ++ entriesOn label L' :=
  List.flatMap_append

theorem entriesOn_congr {label label' : Nat → Option Nat} {L : List SimHolding}
    (h : ∀ e ∈ L, label e.number = label' e.number) : entriesOn label L = entriesOn label' L :=
  List.flatMap_congr fun e he => by rw [h e he]

/-- To choose among the entries is to choose among the holdings, when the entries of each holding
are chosen together. -/
theorem filter_entriesOn {label : Nat → Option Nat} {p : Entry → Bool} {q : SimHolding → Bool}
    {L : List SimHolding}
    (h : ∀ e ∈ L, ∀ a ∈ e.registration.demand.entries (label e.number), p a = q e) :
    (entriesOn label L).filter p = entriesOn label (L.filter q) := by
  induction L with
  | nil => rfl
  | cons e L ih =>
    have he := h e List.mem_cons_self
    have hrest := ih fun f hf => h f (List.mem_cons_of_mem e hf)
    rw [entriesOn, List.flatMap_cons, List.filter_append, ← entriesOn, hrest, List.filter_cons]
    cases hq : q e with
    | true =>
      rw [List.filter_eq_self.mpr fun a ha => by rw [he a ha, hq]]
      rfl
    | false =>
      rw [List.filter_eq_nil_iff.mpr fun a ha => by simp [he a ha, hq]]
      rfl

theorem map_task_entriesOn (label : Nat → Option Nat) (L : List SimHolding) :
    (entriesOn label L).map (·.task) = (L.map (·.registration.tasks)).flatten := by
  induction L with
  | nil => rfl
  | cons e L ih =>
    rw [entriesOn, List.flatMap_cons, List.map_append, ← entriesOn, ih, Demand.entries,
      List.map_map, List.map_cons, List.flatten_cons]
    congr 1
    exact List.map_id _

theorem wakesOn_of_mem {e : SimHolding} {request : Option Nat} {a : Entry}
    (ha : a ∈ e.registration.demand.entries request) (signal : SignalId) (v : Logic) :
    a.wakesOn signal v =
      (decide (e.registration.signal = signal) && e.registration.accepts v) := by
  obtain ⟨task, -, rfl⟩ := List.mem_map.mp ha
  rfl

/-- **What a change wakes** are the tasks of the holdings that accept it, in their order. -/
theorem map_task_woken (label : Nat → Option Nat) (L : List SimHolding) (signal : SignalId)
    (v : Logic) : ((entriesOn label L).filter (·.wakesOn signal v)).map (·.task) =
      (((L.filter (·.registration.signal = signal)).filter
        (·.registration.accepts v)).map (·.registration.tasks)).flatten := by
  have hchosen : (entriesOn label L).filter (·.wakesOn signal v) =
      entriesOn label (L.filter fun f =>
        decide (f.registration.signal = signal) && f.registration.accepts v) :=
    filter_entriesOn fun _ _ _ ha => wakesOn_of_mem ha signal v
  rw [hchosen, map_task_entriesOn, List.filter_filter]
  congr 3
  funext f
  exact Bool.and_comm _ _

/-- The entries of a holding are spent together. -/
theorem filter_stay (label : Nat → Option Nat) (L : List SimHolding) (signal : SignalId)
    (v : Logic) :
    (entriesOn label L).filter (fun a => !(a.wakesOn signal v && decide (a.mode = .oneShot))) =
      entriesOn label (L.filter fun f =>
        !(decide (f.registration.signal = signal) && Bench.isSpent v f)) := by
  refine filter_entriesOn fun f _ a ha => ?_
  have hmode : a.mode = f.registration.mode := by
    obtain ⟨task, -, rfl⟩ := List.mem_map.mp ha
    rfl
  rw [wakesOn_of_mem ha, hmode, Bench.isSpent, Bool.and_assoc]

/-- The batches of a list have the entries of the list. -/
theorem flatMap_listDemands (policy : BatchPolicy) (p : PendingWaits SignalId)
    (v : SignalId × Edge) :
    (p.listDemands policy v).flatMap (Demand.entries none) =
      (p.waiting v.1 v.2).map fun task => ⟨v.1, v.2, task, .oneShot, none⟩ := by
  rw [PendingWaits.listDemands, List.flatMap_map]
  calc (policy.split (p.waiting v.1 v.2)).flatMap
        (fun batch => Demand.entries none ⟨v.1, v.2, batch, .oneShot⟩)
      = (policy.split (p.waiting v.1 v.2)).flatten.map
          fun task => ⟨v.1, v.2, task, .oneShot, none⟩ := by
        rw [List.map_flatten, List.flatMap_def]
        rfl
    _ = (p.waiting v.1 v.2).map fun task => ⟨v.1, v.2, task, .oneShot, none⟩ := by
        rw [policy.flatten_split]

/-- **A flush** adds the entries of the waits in the order of the drain, whatever the batches. -/
theorem entriesOn_of_demands {label : Nat → Option Nat} {new : List SimHolding}
    {policy : BatchPolicy} {p : PendingWaits SignalId} {order : VisitOrder SignalId}
    (hlabel : ∀ e ∈ new, label e.number = none)
    (hnew : new.map (·.registration.demand) = p.demands policy order) :
    entriesOn label new = (p.visits order).flatMap fun (signal, edge) =>
      (p.waiting signal edge).map fun task => ⟨signal, edge, task, .oneShot, none⟩ := by
  calc entriesOn label new
      = new.flatMap fun e => e.registration.demand.entries none :=
        List.flatMap_congr fun e he => by rw [hlabel e he]
    _ = (new.map (·.registration.demand)).flatMap (Demand.entries none) := by
        rw [List.flatMap_map]
    _ = (p.visits order).flatMap fun v =>
          (p.listDemands policy v).flatMap (Demand.entries none) := by
        rw [hnew, PendingWaits.demands, List.flatMap_assoc]
    _ = _ := List.flatMap_congr fun v _ => flatMap_listDemands policy p v

namespace Bench

variable {T : Type}

/-! ### Two machines in step -/

/-- The context `b` with the roster `L` is mirrored by the machine `u`. -/
structure Mirrors (label : Nat → Option Nat) (b : SimBench (SchedulerRecord T))
    (L : List SimHolding) (u : Unbatched) : Prop where
  tracked : b.Tracked (Carries u.sim) L
  live : b.mux.isPoisoned = false
  unknownAsZero : b.mux.unknownAsZero = u.unknownAsZero
  pending : b.mux.pending = u.pending
  entries : u.entries = entriesOn label L
  unlabelled : ∀ m, b.log.issued.length ≤ m → label m = none

/-- From `b` the context has come to `b'` with the given wakings, and is mirrored by `u'` there. -/
structure Follows (label : Nat → Option Nat) (b : SimBench (SchedulerRecord T))
    (wakings : List Waking) (b' : SimBench (SchedulerRecord T)) (u' : Unbatched) : Prop where
  mirrors : ∃ L, Mirrors label b' L u'
  issued : b.log.issued <+: b'.log.issued
  resumed : b'.resumed.flatten = b.resumed.flatten ++ wakings.flatMap (·.tasks)

variable {label label' : Nat → Option Nat} {b b' b'' : SimBench (SchedulerRecord T)}
  {L : List SimHolding} {u u' u'' : Unbatched}

theorem Mirrors.follows (h : Mirrors label b L u) : Follows label b [] b u :=
  ⟨⟨L, h⟩, List.prefix_rfl, (List.append_nil _).symm⟩

/-- No number to come has a label. -/
theorem Mirrors.unlabelled_of_prefix (h : Mirrors label b L u)
    (hissued : b.log.issued <+: b'.log.issued) : ∀ m, b'.log.issued.length ≤ m → label m = none :=
  fun m hm => h.unlabelled m (Nat.le_trans hissued.length_le hm)

theorem Follows.trans {wakings more : List Waking} (h : Follows label b wakings b' u')
    (h' : Follows label' b' more b'' u'') : Follows label' b (wakings ++ more) b'' u'' := by
  refine ⟨h'.mirrors, h.issued.trans h'.issued, ?_⟩
  rw [h'.resumed, h.resumed, List.append_assoc, List.flatMap_append]

/-- Changes of the simulators that leave the callbacks alone keep the machines in step. -/
theorem Mirrors.onSim (h : Mirrors label b L u) {f g : Sim → Sim}
    (hcallbacks : (f b.native).callbacks = b.native.callbacks)
    (hnext : (f b.native).nextOrder = b.native.nextOrder)
    (hworld : SameWorld (g u.sim) (f b.native)) : Mirrors label (b.onSim f) L (u.onSim g) :=
  ⟨h.tracked.onSim hcallbacks hnext hworld, h.live, h.unknownAsZero, h.pending, h.entries,
    h.unlabelled⟩

theorem Mirrors.follows_onSim {f : Sim → Sim} (h : Mirrors label (b.onSim f) L u) :
    Follows label b [] (b.onSim f) u :=
  ⟨⟨L, h⟩, List.prefix_rfl, (List.append_nil _).symm⟩

/-- Entries of the log that issue no key do not matter either. -/
theorem Mirrors.note (h : Mirrors label b L u) {entry : LogEntry}
    (hentry : ∀ key id signal edge tasks, entry ≠ .registered key id signal edge tasks) :
    Mirrors label (b.note entry) L u := by
  have hissued : (b.note entry).log.issued = b.log.issued := Log.issued_push hentry
  refine ⟨h.tracked.congr rfl rfl hissued, h.live, h.unknownAsZero, h.pending, h.entries, ?_⟩
  rw [hissued]
  exact h.unlabelled

/-! ### Operations -/

theorem addWait_follows (h : Mirrors label b L u) (signal : SignalId) (edge : Edge)
    (task : TaskId) :
    (Outcome.ofExcept ((b.addWait signal edge task).map fun b => ((), b))).Ends Fault.IsDuplicate
      SimError.Interrupts fun _ b' => ∃ pending, u.pending.add signal edge task = .ok pending ∧
        Follows label b [] b' { u with pending } := by
  obtain ⟨-, heq⟩ | heq := b.addWait_spec signal edge task
  · rw [heq]
    trivial
  · have honce : task ∉ b.mux.pending.waiting signal edge := by
      intro htwice
      rw [addWait, Mux.addWait, PendingWaits.add, if_pos htwice] at heq
      cases heq
    rw [heq]
    refine ⟨u.pending.push signal edge task, ?_, ⟨L, ?_⟩, ?_, ?_⟩
    · rw [PendingWaits.add, ← h.pending, if_neg honce]
    · refine ⟨h.tracked.congr rfl rfl rfl, h.live, h.unknownAsZero, ?_, h.entries, h.unlabelled⟩
      show b.mux.pending.push signal edge task = _
      rw [h.pending]
    · exact List.prefix_rfl
    · exact (List.append_nil _).symm

theorem flush_follows (h : Mirrors label b L u) (order : VisitOrder SignalId) :
    (b.flush order).Ends Fault.Never MuxError.Interrupts fun _ b' =>
      Follows label b [] b' (u.flush order) := by
  have hresult := flush_spec (tracking_since (tracking_carries u.sim) _ _) h.tracked.since h.live
    order
  generalize b.flush order = o at hresult ⊢
  cases hresult with
  | failed => trivial
  | done new b' summary htracked hframe hpending hfailed hdemands =>
    have hprefix : b.log.issued <+: b'.log.issued := htracked.extra.2.1
    refine ⟨⟨L ++ new, htracked.of_since, ?_, ?_,
      hpending.trans (congrArg PendingWaits.clear h.pending), ?_, ?_⟩, hprefix, ?_⟩
    · rw [isPoisoned_of_frame hframe hfailed, h.live]
    · rw [hframe.unknownAsZero, h.unknownAsZero]
      rfl
    · -- what a flush registers has not been subscribed by a request of its own
      have hlabel : ∀ e ∈ new, label e.number = none := fun e he =>
        h.unlabelled _ (htracked.le_number_of_new e he)
      rw [entriesOn_append, entriesOn_of_demands hlabel hdemands, ← h.entries, h.pending]
      rfl
    · exact h.unlabelled_of_prefix hprefix
    · rw [resumed_of_scheduler hframe.scheduler]
      exact (List.append_nil _).symm

/-- A task that is subscribed at once has an entry with the number of the request. -/
theorem registerSingle_follows (h : Mirrors label b L u) (signal : SignalId) (edge : Edge)
    (task : TaskId) (mode : Mode) (request : Nat) :
    (b.registerSingle signal edge task mode).Ends Fault.Never MuxError.Interrupts fun key b' =>
      ∃ m, b.log.issued.length ≤ m ∧ b'.log.issued[m]? = some key ∧
        Follows (Function.update label m (some request)) b [] b'
          (u.subscribe request signal edge task mode) := by
  obtain ⟨b', heq, -⟩ | ⟨e, b', heq, hmade, hdemand⟩ := registerSingle_spec
    (tracking_since (tracking_carries u.sim) _ _) h.tracked.since h.live signal edge task mode
  · rw [heq]
    trivial
  · rw [heq]
    have htracked := hmade.tracked
    have hprefix : b.log.issued <+: b'.log.issued := htracked.extra.2.1
    have hnumbered := htracked.extra.1.numbered
    have he : e ∈ L ++ [e] := List.mem_append_right L (List.mem_singleton.mpr rfl)
    have hnew := htracked.le_number_of_new e (List.mem_singleton.mpr rfl)
    refine ⟨e.number, hnew, hnumbered.issued_at e he,
      ⟨L ++ [e], htracked.of_since, ?_, ?_, ?_, ?_, ?_⟩, hprefix, ?_⟩
    · rw [isPoisoned_of_frame hmade.frame hmade.failed, h.live]
    · rw [hmade.frame.unknownAsZero, h.unknownAsZero]
      rfl
    · rw [hmade.pending, h.pending]
      rfl
    · -- the label of the new registration is not that of an older one
      have hold : entriesOn (Function.update label e.number (some request)) L =
          entriesOn label L := by
        refine entriesOn_congr fun f hf => Function.update_of_ne ?_ _ _
        have hlt := h.tracked.extra.numbered.number_lt hf
        omega
      have hone : entriesOn (Function.update label e.number (some request)) [e] =
          [⟨signal, edge, task, mode, some request⟩] := by
        rw [entriesOn, List.flatMap_singleton, Function.update_self, hdemand]
        rfl
      rw [entriesOn_append, hold, hone, ← h.entries]
      rfl
    · intro m hm
      have hlt := hnumbered.number_lt he
      rw [Function.update_of_ne (by omega)]
      exact h.unlabelled_of_prefix hprefix m hm
    · rw [resumed_of_scheduler hmade.frame.scheduler]
      exact (List.append_nil _).symm

theorem cancel_follows (h : Mirrors label b L u) (key : RegistrationKey) :
    (Outcome.ofExcept (b.cancel key)).Ends Fault.Never SimError.Interrupts fun _ b' =>
      Follows label b [] b' { u with entries := entriesOn label (L.filter (·.key ≠ key)) } := by
  have hresult := cancel_spec (tracking_since (tracking_carries u.sim) b.log.issued L)
    h.tracked.since key
  generalize b.cancel key = o at hresult ⊢
  cases hresult with
  | gone habsent =>
    rw [filter_of_absent habsent, ← h.entries]
    exact h.follows
  | refused f hrefuses => exact absurd hrefuses not_refuses_of_carries
  | ended e he hkey b₁ b₂ hended hcounted =>
    subst hkey hcounted
    have hissued : ((b₁.count fun c => { c with cancelled := c.cancelled + 1 }).note
        (.cancelled e.key)).log.issued = b₁.log.issued := Log.issued_push (by simp)
    have hprefix : b.log.issued <+: b₁.log.issued := hended.tracked.extra.2.1
    rw [← hissued] at hprefix
    have hlive : b₁.mux.isPoisoned = false := by
      rw [isPoisoned_of_frame hended.frame hended.failed, h.live]
    refine ⟨⟨L.filter (·.key ≠ e.key), hended.tracked.of_since.congr rfl rfl hissued, hlive,
      hended.frame.unknownAsZero.trans h.unknownAsZero, hended.pending.trans h.pending, rfl,
      h.unlabelled_of_prefix hprefix⟩, hprefix, ?_⟩
    show b₁.resumed.flatten = _
    rw [resumed_of_scheduler hended.frame.scheduler]
    exact (List.append_nil _).symm

theorem shutdown_follows (h : Mirrors label b L u) :
    (Outcome.ofExcept b.shutdown).Ends Fault.Never SimError.Interrupts fun _ b' =>
      Follows label b [] b' u.shutdown := by
  rcases shutdown_spec (tracking_since (tracking_carries u.sim) b.log.issued L) h.tracked.since with
    ⟨f, hrefuses, -⟩ | ⟨b', heq, htracked, hframe, hpending, hfailed, -⟩
  · exact absurd hrefuses not_refuses_of_carries
  · rw [heq]
    have hprefix : b.log.issued <+: b'.log.issued := htracked.extra.2.1
    refine ⟨⟨[], htracked.of_since, ?_, hframe.unknownAsZero.trans h.unknownAsZero,
      hpending.trans (congrArg PendingWaits.clear h.pending), rfl, ?_⟩, hprefix, ?_⟩
    · rw [isPoisoned_of_frame hframe hfailed, h.live]
    · exact h.unlabelled_of_prefix hprefix
    · rw [resumed_of_scheduler hframe.scheduler]
      exact (List.append_nil _).symm

/-- To schedule a change comes to the same in both simulators. -/
theorem schedule_follows (h : Mirrors label b L u) (time : SimTime) (signal : SignalId)
    (value : Logic) :
    Follows label b [] (b.onSim fun s => (s.schedule time signal value).toOption.getD s)
      (u.onSim fun s => (s.schedule time signal value).toOption.getD s) := by
  have hworld := h.tracked.extra.world
  suffices hmirrors : Mirrors label
      (b.onSim fun s => (s.schedule time signal value).toOption.getD s) L
      (u.onSim fun s => (s.schedule time signal value).toOption.getD s) from hmirrors.follows_onSim
  by_cases hpast : time.fs < b.native.now.fs
  · have hpast' : time.fs < u.sim.now.fs := hworld.now ▸ hpast
    refine h.onSim ?_ ?_ ?_
    · rw [Sim.schedule, if_pos hpast]
      rfl
    · rw [Sim.schedule, if_pos hpast]
      rfl
    · rw [Sim.schedule, if_pos hpast', Sim.schedule, if_pos hpast]
      exact hworld
  · have hpast' : ¬ time.fs < u.sim.now.fs := hworld.now ▸ hpast
    refine h.onSim ?_ ?_ ?_
    · rw [Sim.schedule, if_neg hpast]
      rfl
    · rw [Sim.schedule, if_neg hpast]
      rfl
    · rw [Sim.schedule, if_neg hpast', Sim.schedule, if_neg hpast, ← hworld.nextSeq,
        ← hworld.queue]
      exact ⟨hworld.now, rfl, rfl, hworld.signals⟩

/-! ### Changes of value -/

theorem resumedUntil_of_append {calls : List (List TaskId)} (h : b'.resumed = b.resumed ++ calls) :
    b.resumedUntil b' = calls.flatten := by
  rw [resumedUntil, h, List.drop_left]

variable [Scheduler T]

/-- **A change of value** wakes the same tasks in both machines. -/
theorem applyChange_follows (h : Mirrors label b L u) (e : Event) :
    (b.applyChange e.signal e.value).Ends Fault.MissesSignal MuxError.Interrupts fun _ b' =>
      ∃ u', u.applyEvent e = some (Moment.wakings ⟨b, e⟩, u') ∧
        Follows label b (Moment.wakings ⟨b, e⟩) b' u' := by
  have hsignal : b.native.signal? e.signal = u.sim.signal? e.signal := by
    rw [Sim.signal?, h.tracked.extra.world.signals, Sim.signal?]
  cases hbefore : b.native.signal? e.signal with
  | none =>
    rw [applyChange_eq, hbefore]
    trivial
  | some before =>
    by_cases hsame : before.value = e.value
    · have hnothing : Moment.wakings ⟨b, e⟩ = [] := by
        simp only [Moment.wakings, hbefore, if_pos hsame]
      rw [applyChange_eq, hbefore, hnothing]
      simp only [if_pos hsame]
      refine ⟨u, ?_, h.follows⟩
      rw [Unbatched.applyEvent, ← hsignal, hbefore]
      simp only [if_pos hsame]
    · have hreported := applyChange_reported h.tracked h.live hbefore hsame
      obtain ⟨error, b', heq, herror⟩ | ⟨_, b', heq, hreported⟩ := hreported.failed_or_done
      · rw [heq]
        exact herror
      have hobserve : u.observe e.value = b.mux.observe e.value := by
        rw [Unbatched.observe, Mux.observe, h.unknownAsZero]
      set v := b.mux.observe e.value with hv
      -- the entries of the other machine are those of the roster, task by task
      have hwoken := map_task_woken label L e.signal v
      have hstay := filter_stay label L e.signal v
      rw [← h.entries] at hwoken hstay
      have hwakings : Moment.wakings ⟨b, e⟩ =
          [⟨e, (u.entries.filter (·.wakesOn e.signal v)).map (·.task)⟩] := by
        simp only [Moment.wakings, hbefore, if_neg hsame, heq]
        rw [resumedUntil_of_append hreported.resumed, hwoken]
      rw [heq]
      refine ⟨{ u with
          sim := u.sim.withValue e.signal e.value
          entries := u.entries.filter fun a =>
            !(a.wakesOn e.signal v && decide (a.mode = .oneShot)) }, ?_, ⟨_, hreported.tracked,
          hreported.live, hreported.unknownAsZero.trans h.unknownAsZero,
          hreported.pending.trans h.pending, hstay, ?_⟩, hreported.issued, ?_⟩
      · rw [Unbatched.applyEvent, ← hsignal, hbefore, hwakings]
        simp only [if_neg hsame, hobserve]
      · exact h.unlabelled_of_prefix hreported.issued
      · rw [hreported.resumed, List.flatten_append, hwakings, hwoken, List.flatMap_singleton]

/-- Events from the head of the queue wake the same tasks, one event after another. -/
theorem applyEvents_follows (es : List Event) :
    ∀ (b : SimBench (SchedulerRecord T)) (L : List SimHolding) (u : Unbatched),
      Mirrors label b L u →
      (applyEvents es b).Ends Fault.MissesSignal MuxError.Interrupts fun _ b' =>
        ∃ u', Unbatched.applyEvents es u =
            some ((eventStages es b).flatMap Stage.wakings, u') ∧
          Follows label b ((eventStages es b).flatMap Stage.wakings) b' u' := by
  induction es with
  | nil => exact fun b L u h => ⟨u, rfl, h.follows⟩
  | cons e rest ih =>
    intro b L u h
    have hworld := h.tracked.extra.world
    have hnext : Mirrors label b.popped L
        (u.onSim fun s => { s with queue := s.queue.tail }) := by
      refine h.onSim rfl rfl ⟨hworld.now, ?_, hworld.nextSeq, hworld.signals⟩
      rw [hworld.queue]
    have hfirst := applyChange_follows hnext e
    rw [applyEvents_cons, eventStages, List.flatMap_cons, Unbatched.applyEvents]
    generalize b.popped.applyChange e.signal e.value = o at hfirst ⊢
    cases o with
    | fault f => exact hfirst
    | failed error b₁ => exact hfirst
    | done _ b₁ =>
      obtain ⟨u₁, hwoken, hfollows⟩ := hfirst
      obtain ⟨L₁, hmirrors⟩ := hfollows.mirrors
      refine (ih b₁ L₁ u₁ hmirrors).imp fun _ b' hmore => ?_
      obtain ⟨u', hrest, hfollows'⟩ := hmore
      refine ⟨u', ?_, (hnext.follows_onSim.trans hfollows).trans hfollows'⟩
      simp only [hwoken, hrest, Option.map_some]
      rfl

/-! ### Steps of the simulator -/

/-- What comes after a flush in a step wakes the same tasks in both machines. -/
theorem advance_follows {order : VisitOrder SignalId} (h : Mirrors label b L (u.flush order)) :
    (b.advance).Ends Fault.MissesSignal SimError.Interrupts fun result b' =>
      ∃ u', u.step order = some (result, b.advanceStages.flatMap Stage.wakings, u') ∧
        Follows label b (b.advanceStages.flatMap Stage.wakings) b' u' := by
  have hworld := h.tracked.extra.world
  have htime : (u.flush order).sim.nextTime? = b.native.nextTime? := by
    rw [Sim.nextTime?, Sim.nextTime?, hworld.queue]
  rw [advance, advanceStages, Unbatched.step]
  simp only [htime]
  cases hnow : b.native.nextTime? with
  | none => exact ⟨u.flush order, rfl, h.follows⟩
  | some now =>
    have h₁ : Mirrors label (b.onSim fun s => { s with now }) L
        ((u.flush order).onSim fun s => { s with now }) :=
      h.onSim rfl rfl ⟨rfl, hworld.queue, hworld.nextSeq, hworld.signals⟩
    have hevents := applyEvents_follows (b.native.queue.takeWhile (·.time = now)) _ _ _ h₁
    simp only [← hworld.queue]
    set b₁ := b.onSim fun s => { s with now } with hb₁
    generalize applyEvents (b.native.queue.takeWhile (·.time = now)) b₁ = o at hevents ⊢
    cases o with
    | fault f => exact hevents
    | failed error b₂ => exact hevents
    | done _ b₂ =>
      obtain ⟨u', happlied, hfollows⟩ := hevents
      obtain ⟨L₂, h₂⟩ := hfollows.mirrors
      have hworld₂ := h₂.tracked.extra.world
      -- the counter of steps is the one part of the simulator that is not the same
      have hcounted : Mirrors label (b₂.onSim fun s => { s with steps := s.steps + 1 }) L₂ u' :=
        h₂.onSim (g := id) rfl rfl ⟨hworld₂.now, hworld₂.queue, hworld₂.nextSeq, hworld₂.signals⟩
      have hall := (h₁.follows_onSim.trans hfollows).trans hcounted.follows_onSim
      rw [List.nil_append, List.append_nil] at hall
      exact ⟨u', by rw [happlied]; rfl, hall⟩

/-- **A step** wakes the same tasks in both machines. -/
theorem step_follows (h : Mirrors label b L u) (order : VisitOrder SignalId) :
    (b.step order).Ends Fault.MissesSignal SimError.Interrupts fun result b' =>
      ∃ u', u.step order = some (result, b.wakings (.step order), u') ∧
        Follows label b (b.wakings (.step order)) b' u' := by
  rw [step_eq, wakings, stages, stepStages]
  obtain ⟨error, b₁, heq, herror⟩ | ⟨summary, b₁, heq, hflush⟩ :=
    (flush_follows h order).failed_or_done
  · rw [heq]
    exact herror
  · obtain ⟨L₁, h₁⟩ := hflush.mirrors
    rw [heq]
    refine (advance_follows h₁).imp fun result b' hadvance => ?_
    obtain ⟨u', hstep, hfollows⟩ := hadvance
    exact ⟨u', hstep, hflush.trans hfollows⟩

/-- Steps until the queue is empty wake the same tasks, one step after another. -/
theorem runSteps_follows (n : Nat) :
    ∀ (orders : Nat → VisitOrder SignalId) (b : SimBench (SchedulerRecord T))
      (L : List SimHolding) (u : Unbatched), Mirrors label b L u →
      (runSteps n orders b).Ends Fault.MissesSignal SimError.Interrupts fun _ b' =>
        ∃ u', Unbatched.runSteps n orders u =
            some ((runStepsStages n orders b).flatMap Stage.wakings, u') ∧
          Follows label b ((runStepsStages n orders b).flatMap Stage.wakings) b' u' := by
  induction n with
  | zero =>
    intro orders b L u h
    refine (step_follows h (orders 0)).andThen fun result b' hstep => ?_
    obtain ⟨u', heq, hfollows⟩ := hstep
    refine ⟨u', ?_, hfollows⟩
    rw [Unbatched.runSteps, heq]
    rfl
  | succ n ih =>
    intro orders b L u h
    have hstep := step_follows h (orders 0)
    rw [runSteps, runStepsStages, Unbatched.runSteps, List.flatMap_append]
    generalize b.step (orders 0) = o at hstep ⊢
    cases o with
    | fault f => exact hstep
    | failed error b₁ => exact hstep
    | done result b₁ =>
      obtain ⟨u₁, heq, hfollows⟩ := hstep
      rw [heq]
      cases result with
      | done =>
        refine ⟨u₁, ?_, ?_⟩
        · rw [List.flatMap_nil, List.append_nil]
          rfl
        · rw [List.flatMap_nil, List.append_nil]
          exact hfollows
      | continued =>
        obtain ⟨L₁, hmirrors⟩ := hfollows.mirrors
        refine (ih _ b₁ L₁ u₁ hmirrors).imp fun _ b' hmore => ?_
        obtain ⟨u', hrest, hfollows'⟩ := hmore
        refine ⟨u', ?_, hfollows.trans hfollows'⟩
        simp only [hrest, Option.map_some]
        rfl

/-- So do steps up to a limit. -/
theorem runStepsUntil_follows (limit : SimTime) (n : Nat) :
    ∀ (orders : Nat → VisitOrder SignalId) (b : SimBench (SchedulerRecord T))
      (L : List SimHolding) (u : Unbatched), Mirrors label b L u →
      (runStepsUntil limit n orders b).Ends Fault.MissesSignal SimError.Interrupts fun _ b' =>
        ∃ u', Unbatched.runStepsUntil limit n orders u =
            some ((runStepsUntilStages limit n orders b).flatMap Stage.wakings, u') ∧
          Follows label b ((runStepsUntilStages limit n orders b).flatMap Stage.wakings) b' u' := by
  induction n with
  | zero =>
    intro orders b L u h
    refine (flush_follows h (orders 0)).mapError.ofNever.andThen fun _ b' hflush => ?_
    exact ⟨u.flush (orders 0), rfl, hflush⟩
  | succ n ih =>
    intro orders b L u h
    have htime : u.sim.nextTime? = b.native.nextTime? := by
      rw [Sim.nextTime?, Sim.nextTime?, h.tracked.extra.world.queue]
    rw [runStepsUntil, runStepsUntilStages, Unbatched.runStepsUntil, htime]
    by_cases hnext : b.native.nextTime?.any (·.fs ≤ limit.fs) = true
    · have hstep := step_follows h (orders 0)
      rw [if_pos hnext, if_pos hnext, if_pos hnext, List.flatMap_append]
      generalize b.step (orders 0) = o at hstep ⊢
      cases o with
      | fault f => exact hstep
      | failed error b₁ => exact hstep
      | done result b₁ =>
        obtain ⟨u₁, heq, hfollows⟩ := hstep
        obtain ⟨L₁, hmirrors⟩ := hfollows.mirrors
        rw [heq]
        refine (ih _ b₁ L₁ u₁ hmirrors).imp fun _ b' hmore => ?_
        obtain ⟨u', hrest, hfollows'⟩ := hmore
        refine ⟨u', ?_, hfollows.trans hfollows'⟩
        simp only [hrest, Option.map_some]
        rfl
    · rw [if_neg hnext, if_neg hnext, if_neg hnext]
      refine (flush_follows h (orders 0)).mapError.ofNever.andThen fun _ b' hflush => ?_
      exact ⟨u.flush (orders 0), rfl, hflush⟩

/-- **A run** wakes the same tasks in both machines. -/
theorem run_follows (h : Mirrors label b L u) (orders : Nat → VisitOrder SignalId) :
    (b.run orders).Ends Fault.MissesSignal SimError.Interrupts fun _ b' =>
      ∃ u', u.runSteps u.sim.queue.length orders = some (b.wakings (.run orders), u') ∧
        Follows label b (b.wakings (.run orders)) b' u' := by
  -- the queues have the same length, and so the runs have the same fuel
  rw [← h.tracked.extra.world.queue]
  refine (runSteps_follows _ orders b L u h).andThen fun _ b' hrun => ?_
  obtain ⟨u', heq, ⟨L', h'⟩, hissued, hresumed⟩ := hrun
  refine ⟨u', heq, ⟨L', h'.note (by simp)⟩, ?_, hresumed⟩
  rw [show (b'.note _).log.issued = b'.log.issued from Log.issued_push (by simp)]
  exact hissued

theorem runUntil_follows (h : Mirrors label b L u) (orders : Nat → VisitOrder SignalId)
    (limit : SimTime) :
    (b.runUntil orders limit).Ends Fault.MissesSignal SimError.Interrupts fun _ b' =>
      ∃ u', u.runStepsUntil limit u.sim.queue.length orders =
          some (b.wakings (.runUntil orders limit), u') ∧
        Follows label b (b.wakings (.runUntil orders limit)) b' u' := by
  rw [← h.tracked.extra.world.queue]
  exact (runStepsUntil_follows limit _ orders b L u h).andThen fun _ b' hrun => hrun

end Bench

end EdgeWait
