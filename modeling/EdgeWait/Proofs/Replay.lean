/-
A run computes the sorted replay of the queue.

* `terminates` — a run is over after at most one step for each event, and one more;
* `applyChange_reports` — an event is reported to all callbacks on its signal, in the order of their
  subscription, if and only if it changes the value of the signal;
* `applyEvents_replays`, `advance_replays`, `step_replays`, `runSteps_replays` — the events are
  applied one after another, each of them as it comes to the head of the queue (`Replays`);
* `run_replays` — all of it, for every state that a context and its simulator can reach.

Design notes: what happens at an event depends on the state in which its turn comes, so the events
of a run are told with these states (`Moment`).  The values of signals at that point are those that
the events before it have left, which needs no state at all (`replayed`).  Nothing keeps a host from
scheduling an event on a signal that does not exist, and then the run stops on a fault; it does not
where every event of the queue has a signal (`Sim.Grounded`).
-/
import EdgeWait.Proofs.Stopping
import EdgeWait.Proofs.Wakeups
import Mathlib.Data.Finset.Card

namespace EdgeWait

open Sim

/-! ### Values -/

/-- The value of a signal. -/
def Sim.value? (s : Sim) (signal : SignalId) : Option Logic := (s.signal? signal).map (·.value)

/-- The value of a signal after some events: that of the last event on the signal, or the one that
it had before. -/
def replayed (events : List Event) (signal : SignalId) (before : Option Logic) : Option Logic :=
  before.map fun value =>
    ((events.filter (·.signal = signal)).getLast?.map (·.value)).getD value

theorem replayed_nil (signal : SignalId) (before : Option Logic) :
    replayed [] signal before = before :=
  Option.map_id'

theorem replayed_append (events events' : List Event) (signal : SignalId)
    (before : Option Logic) : replayed (events ++ events') signal before =
      replayed events' signal (replayed events signal before) := by
  cases before with
  | none => rfl
  | some value =>
    simp only [replayed, Option.map_some, List.filter_append, List.getLast?_append]
    cases (events'.filter (·.signal = signal)).getLast? with
    | none => rfl
    | some e => rfl

theorem replayed_singleton (e : Event) (signal : SignalId) (before : Option Logic) :
    replayed [e] signal before =
      before.map fun value => if e.signal = signal then e.value else value := by
  by_cases heq : e.signal = signal
  · simp [replayed, heq]
  · simp [replayed, heq]

namespace Sim

/-- To set a signal gives it the value, and no other. -/
theorem value?_withValue (s : Sim) (signal : SignalId) (value : Logic) (other : SignalId) :
    (s.withValue signal value).value? other =
      (s.value? other).map fun before => if signal = other then value else before := by
  rw [value?, signal?_withValue, value?, Option.map_map, Option.map_map]
  refine congrArg (Option.map · _) (funext fun before => ?_)
  by_cases heq : signal = other
  · simp [heq]
  · simp [heq]

end Sim

/-! ### Moments -/

namespace Moment

variable {T : Type} [Scheduler T]

/-- The event gives its signal another value. -/
def Changes {T : Type} (m : Moment T) : Prop :=
  ∃ value, m.bench.native.value? m.event.signal = some value ∧ value ≠ m.event.value

/-- The event happens at its time, and is reported just when it is a change: to all callbacks that
are subscribed to its signal at this moment, once each, in the order of their subscription. -/
structure Reports (m : Moment T) : Prop where
  now : m.bench.native.now = m.event.time
  quiet : ¬ m.Changes → m.calls = []
  called : m.Changes → m.calls.map (fun call => (call.handle, call.callback)) =
    m.bench.native.subscribers m.event.signal
  live : ∀ call ∈ m.calls, call.isLive = true
  value : ∀ call ∈ m.calls, call.value = m.event.value
  subscribed : ∀ handle callback,
    (handle, callback) ∈ m.bench.native.subscribers m.event.signal ↔
      m.bench.native.callbacks.get? handle = some callback ∧ callback.signal = m.event.signal
  inOrder : (m.bench.native.subscribers m.event.signal).Pairwise fun a b => a.2.order < b.2.order

end Moment

namespace Bench

variable {T : Type} [Scheduler T]

/-- The moments among stages. -/
def momentsOf (stages : List (Stage T)) : List (Moment T) := stages.filterMap Stage.moment?

/-- The moments of an operation of the host. -/
def moments (b : SimBench T) (op : HostOp) : List (Moment T) := momentsOf (b.stages op)

omit [Scheduler T] in
theorem momentsOf_append (stages stages' : List (Stage T)) :
    momentsOf (stages ++ stages') = momentsOf stages ++ momentsOf stages' :=
  List.filterMap_append

omit [Scheduler T] in
@[simp] theorem momentsOf_event_cons (m : Moment T) (stages : List (Stage T)) :
    momentsOf (.event m :: stages) = m :: momentsOf stages := rfl

omit [Scheduler T] in
@[simp] theorem momentsOf_flush_cons (b : SimBench T) (order : VisitOrder SignalId)
    (stages : List (Stage T)) : momentsOf (.flush b order :: stages) = momentsOf stages := rfl

/-- Callbacks are called at moments only. -/
theorem flatMap_momentsOf (stages : List (Stage T)) :
    (momentsOf stages).flatMap (·.calls) = stages.flatMap (·.calls) := by
  induction stages with
  | nil => rfl
  | cons stage rest ih =>
    cases stage with
    | flush b order => exact ih
    | event m => exact congrArg (m.calls ++ ·) ih

end Bench

/-! ### Changes -/

namespace Sim

/-- Two simulators agree in their signals and in the number of steps taken. -/
structure SameSignals (s s' : Sim) : Prop where
  signals : s'.signals = s.signals
  steps : s'.steps = s.steps

/-- Neither to subscribe nor to unsubscribe has to do with signals or steps. -/
theorem respected_sameSignals : Respected SameSignals where
  refl := fun _ => ⟨rfl, rfl⟩
  trans := fun h h' => ⟨h'.signals.trans h.signals, h'.steps.trans h.steps⟩
  subscribe := fun _ _ _ _ => ⟨rfl, rfl⟩
  unsubscribe := by
    intro s s' handle h
    obtain ⟨c, -, rfl⟩ := get?_of_unsubscribe h
    exact ⟨rfl, rfl⟩

theorem SameSignals.value?_eq {s s' : Sim} (h : SameSignals s s') (signal : SignalId) :
    s'.value? signal = s.value? signal := by
  rw [value?, signal?, h.signals, value?, signal?]

theorem respected_delivered : Respected (N := Sim) fun s s' => s'.delivered = s.delivered where
  refl := fun _ => rfl
  trans := fun h h' => h'.trans h
  subscribe := fun _ _ _ _ => rfl
  unsubscribe := by
    intro s s' handle h
    obtain ⟨c, -, rfl⟩ := get?_of_unsubscribe h
    rfl

end Sim

namespace Bench

variable {T : Type} [Scheduler T]

/-- A report that is not stopped comes to every callback that it is meant for. -/
theorem reportTo_done (value : Logic) (callbacks : List (CallbackHandle × Callback)) :
    ∀ b b' : SimBench T, reportTo value callbacks b = .done () b' →
      (reportCalls value callbacks b).map (fun call => (call.handle, call.callback)) = callbacks ∧
        b'.native.delivered = b.native.delivered +
          (reportCalls value callbacks b).countP (·.isLive) := by
  induction callbacks with
  | nil =>
    intro b b' h
    obtain ⟨-, rfl⟩ := Outcome.done.inj h
    exact ⟨rfl, rfl⟩
  | cons called rest ih =>
    obtain ⟨handle, callback⟩ := called
    intro b b' h
    rw [reportTo] at h
    rw [reportCalls]
    cases hlive : b.native.isLive handle with
    -- a callback whose subscription has ended meanwhile is passed over
    | false =>
      rw [hlive, if_neg Bool.false_ne_true] at h
      obtain ⟨hcalled, hcount⟩ := ih b b' h
      rw [if_neg Bool.false_ne_true, List.map_cons, hcalled, List.countP_cons_of_neg]
      · exact ⟨rfl, hcount⟩
      · simp [Call.isLive, hlive]
    | true =>
      rw [hlive, if_pos rfl] at h
      have hdelivered := deliver_respected respected_delivered.toRespectedByEnds
        (b.onSim fun s => { s with delivered := s.delivered + 1 }) callback.key value
      dsimp only at h
      cases hdeliver : (b.onSim fun s => { s with delivered := s.delivered + 1 }).deliver
          callback.key value with
      | fault f =>
        rw [hdeliver] at h
        cases h
      | failed e b₁ =>
        rw [hdeliver] at h
        cases h
      | done delivery b₁ =>
        rw [hdeliver] at h hdelivered
        obtain ⟨hcalled, hcount⟩ := ih b₁ b' h
        rw [if_pos rfl, List.map_cons, hcalled, List.countP_cons_of_pos]
        · have hone : b₁.native.delivered = b.native.delivered + 1 := hdelivered
          refine ⟨rfl, ?_⟩
          dsimp only
          omega
        · simp [Call.isLive, hlive]

/-- **A change** gives the signal the value of the event, and does nothing else to signals, even if
its report is stopped by an error. -/
theorem applyChange_value (b : SimBench T) (e : Event) :
    (b.applyChange e.signal e.value).Upholds Fault.Any fun b' =>
      (∀ signal, b'.native.value? signal = replayed [e] signal (b.native.value? signal)) ∧
        b'.native.steps = b.native.steps := by
  -- an event that is no change leaves its signal as it is
  have hquiet : (∀ value, b.native.value? e.signal = some value → value = e.value) →
      ∀ signal, b.native.value? signal = replayed [e] signal (b.native.value? signal) := by
    intro hsame signal
    rw [replayed_singleton]
    by_cases heq : e.signal = signal
    · subst heq
      cases hvalue : b.native.value? e.signal with
      | none => rfl
      | some value => simp [hsame value hvalue]
    · simp only [if_neg heq]
      exact Option.map_id'.symm
  rw [applyChange_eq]
  cases hbefore : b.native.signal? e.signal with
  | none => trivial
  | some before =>
    dsimp only
    by_cases hsame : before.value = e.value
    · rw [if_pos hsame]
      refine ⟨hquiet fun value hvalue => ?_, rfl⟩
      rw [value?, hbefore] at hvalue
      exact (Option.some.inj hvalue).symm.trans hsame
    · rw [if_neg hsame]
      set b₁ := (b.note (.changed b.native.now before.name before.value e.value)).onSim fun s =>
        s.withValue e.signal e.value with hb₁
      have hreports := reportTo_respected respected_sameSignals.toRespectedByEnds
        (fun s => ⟨rfl, rfl⟩) e.value (b₁.native.subscribers e.signal) b₁
      refine hreports.imp fun b' hsignals => ⟨fun signal => ?_, ?_⟩
      · rw [hsignals.value?_eq, replayed_singleton]
        exact value?_withValue b.native e.signal e.value signal
      · exact hsignals.steps

variable {d n : Nat} {b b' : SimBench T} {L : List SimHolding}

/-- The calls of a change report the value that the signal takes. -/
theorem value_of_mem_changeCalls {signal : SignalId} {value : Logic} {call : Call T}
    (hcall : call ∈ b.changeCalls signal value) : call.value = value := by
  rw [changeCalls] at hcall
  cases hbefore : b.native.signal? signal with
  | none =>
    rw [hbefore] at hcall
    cases hcall
  | some before =>
    simp only [hbefore] at hcall
    split at hcall
    · cases hcall
    · exact (mem_reportCalls value _ _ call hcall).2.1

/-- A change is reported to all callbacks on the signal, and nothing else is reported. -/
theorem applyChange_done {e : Event} (hdone : b.applyChange e.signal e.value = .done () b') :
    (¬ (Moment.mk b e).Changes ∧ b.changeCalls e.signal e.value = [] ∧ b' = b) ∨
      (b.changeCalls e.signal e.value).map (fun call => (call.handle, call.callback)) =
          b.native.subscribers e.signal ∧ (Moment.mk b e).Changes ∧
        b'.native.delivered =
          b.native.delivered + (b.changeCalls e.signal e.value).countP (·.isLive) := by
  obtain ⟨before, hbefore⟩ := (has_of_applyChange_eq hdone).exists_signal?
  rw [applyChange_eq] at hdone
  rw [changeCalls]
  simp only [hbefore] at hdone ⊢
  by_cases hsame : before.value = e.value
  · rw [if_pos hsame] at hdone ⊢
    obtain ⟨-, rfl⟩ := Outcome.done.inj hdone
    refine .inl ⟨?_, rfl, rfl⟩
    rintro ⟨value, hsome, hother⟩
    rw [value?, hbefore] at hsome
    obtain rfl := Option.some.inj hsome
    exact hother hsame
  · rw [if_neg hsame] at hdone ⊢
    obtain ⟨hmap, hcount⟩ := reportTo_done _ _ _ _ hdone
    refine .inr ⟨?_, ⟨before.value, by rw [value?, hbefore]; rfl, hsame⟩, ?_⟩
    · rw [hmap]
      rfl
    · rw [hcount]
      rfl

/-- **An event** is reported to the callbacks on its signal just when it is a change. -/
theorem applyChange_reports (h : Ledger d n b L) (hlive : b.mux.isPoisoned = false) {e : Event}
    (hnow : b.native.now = e.time) (hdone : b.applyChange e.signal e.value = .done () b') :
    (Moment.mk b e).Reports ∧
      b'.native.delivered = b.native.delivered + (Moment.mk b e).calls.length := by
  have hcovers := h.tracked.extra.serves.toCovers
  have hleads := applyChange_leads h hlive (has_of_applyChange_eq hdone) e.value
  rw [hdone] at hleads
  have hcalled : ∀ call ∈ b.changeCalls e.signal e.value, call.isLive = true := hleads.1.called
  have hvalue : ∀ call ∈ b.changeCalls e.signal e.value, call.value = e.value :=
    fun _ hcall => value_of_mem_changeCalls hcall
  have hlength : (b.changeCalls e.signal e.value).countP (·.isLive) =
      (b.changeCalls e.signal e.value).length := List.countP_eq_length.mpr hcalled
  have hsubscribed : ∀ handle callback, (handle, callback) ∈ b.native.subscribers e.signal ↔
      b.native.callbacks.get? handle = some callback ∧ callback.signal = e.signal :=
    fun handle callback => hcovers.mem_subscribers_iff
  rcases applyChange_done hdone with ⟨hquiet, hnone, rfl⟩ | ⟨hmap, hchanges, hcount⟩
  · refine ⟨⟨hnow, fun _ => hnone, fun hc => absurd hc hquiet, hcalled, hvalue, hsubscribed,
      hcovers.subscribers_sorted e.signal⟩, ?_⟩
    show _ = _ + (b'.changeCalls e.signal e.value).length
    rw [hnone]
    rfl
  · refine ⟨⟨hnow, fun hc => absurd hchanges hc, fun _ => hmap, hcalled, hvalue, hsubscribed,
      hcovers.subscribers_sorted e.signal⟩, ?_⟩
    rw [hcount, hlength]
    rfl

/-! ### The replay -/

/-- From `b` to `b'` the events of these moments have been applied, one after another. -/
structure Replays (b : SimBench T) (moments : List (Moment T)) (b' : SimBench T) : Prop where
  queue : b.native.queue = moments.map (·.event) ++ b'.native.queue
  value : ∀ signal, b'.native.value? signal =
    replayed (moments.map (·.event)) signal (b.native.value? signal)
  /-- When the turn of an event comes, it has been taken off the head of the queue, and signals have
  the values that the events before it have left. -/
  moment : ∀ pre m post, moments = pre ++ m :: post → m.Reports ∧
    m.bench.native.queue = post.map (·.event) ++ b'.native.queue ∧
    ∀ signal, m.bench.native.value? signal =
      replayed (pre.map (·.event)) signal (b.native.value? signal)
  delivered : b'.native.delivered = b.native.delivered + (moments.flatMap (·.calls)).length

/-- What has nothing to do with events, values and reports applies no events. -/
theorem Replays.nil {b b' : SimBench T} (hqueue : b'.native.queue = b.native.queue)
    (hsignals : b'.native.signals = b.native.signals)
    (hdelivered : b'.native.delivered = b.native.delivered) : Replays b [] b' := by
  refine ⟨hqueue.symm, fun signal => ?_, fun pre m post heq => ?_, hdelivered⟩
  · rw [List.map_nil, replayed_nil, value?, signal?, hsignals, value?, signal?]
  · simp at heq

theorem Replays.trans {b b' b'' : SimBench T} {ms ms' : List (Moment T)} (h : Replays b ms b')
    (h' : Replays b' ms' b'') : Replays b (ms ++ ms') b'' where
  queue := by rw [h.queue, h'.queue, List.map_append, List.append_assoc]
  value := by
    intro signal
    rw [h'.value, h.value, List.map_append, replayed_append]
  moment := by
    intro pre m post heq
    rcases List.append_eq_append_iff.mp heq with ⟨between, rfl, hpost⟩ | ⟨rest, rfl, hrest⟩
    · -- the moment is one of the second part
      obtain ⟨hreports, hqueue, hvalue⟩ := h'.moment between m post hpost
      refine ⟨hreports, hqueue, fun signal => ?_⟩
      rw [hvalue, h.value, List.map_append, replayed_append]
    · cases rest with
      | nil =>
        obtain ⟨hreports, hqueue, hvalue⟩ := h'.moment [] m post hrest.symm
        refine ⟨hreports, hqueue, fun signal => ?_⟩
        rw [hvalue, List.map_nil, replayed_nil, h.value, List.append_nil]
      | cons first rest =>
        rw [List.cons_append] at hrest
        obtain ⟨rfl, hpost⟩ := List.cons.inj hrest
        obtain ⟨hreports, hqueue, hvalue⟩ := h.moment pre m rest rfl
        refine ⟨hreports, ?_, hvalue⟩
        rw [hpost, hqueue, h'.queue, List.map_append, List.append_assoc]
  delivered := by
    rw [h'.delivered, h.delivered, List.flatMap_append, List.length_append, Nat.add_assoc]

/-- **One event** is applied when its time has come. -/
theorem applyChange_replays (h : Ledger d n b L) (hlive : b.mux.isPoisoned = false) {e : Event}
    {later : List Event} (hqueue : b.native.queue = e :: later) (hnow : e.time = b.native.now)
    (hdone : b.popped.applyChange e.signal e.value = .done () b') :
    Replays b [⟨b.popped, e⟩] b' ∧ b'.native.queue = later ∧ b'.native.now = b.native.now ∧
      b'.native.steps = b.native.steps := by
  set b₁ := b.popped with hb₁
  have haside : Aside b b₁ := aside_onSim ⟨⟨rfl, rfl, rfl, rfl⟩, rfl⟩
  obtain ⟨hreports, hdelivered⟩ := applyChange_reports (h.aside haside) hlive hnow.symm hdone
  have hvalues := b₁.applyChange_value e
  have hevents := b₁.applyChange_sameCourse e.signal e.value
  rw [hdone] at hvalues hevents
  obtain ⟨hvalue, hsteps⟩ := hvalues
  have hleft : b'.native.queue = later := by
    rw [hevents.queue]
    show b.native.queue.tail = later
    rw [hqueue]
    rfl
  refine ⟨⟨?_, hvalue, ?_, ?_⟩, hleft, hevents.now, hsteps⟩
  · rw [hqueue, hleft]
    rfl
  · intro pre m post heq
    -- there is only one moment, and nothing before it
    obtain ⟨rfl, rfl, rfl⟩ : pre = [] ∧ m = ⟨b₁, e⟩ ∧ post = [] := by
      cases pre with
      | nil =>
        obtain ⟨rfl, rfl⟩ := List.cons.inj heq
        exact ⟨rfl, rfl, rfl⟩
      | cons first rest => simp at heq
    refine ⟨hreports, ?_, fun signal => (replayed_nil signal _).symm⟩
    rw [← hevents.queue]
    rfl
  · rw [hdelivered, List.flatMap_singleton]
    rfl

/-- **The events** of one time are applied one after another. -/
theorem applyEvents_replays (later events : List Event) :
    ∀ b b' : SimBench T, (∃ d n L, Ledger d n b L) → b.mux.isPoisoned = false →
      b.native.queue = events ++ later → (∀ e ∈ events, e.time = b.native.now) →
      applyEvents events b = .done () b' →
      Replays b (momentsOf (eventStages events b)) b' ∧ b'.native.queue = later ∧
        b'.native.now = b.native.now ∧ b'.native.steps = b.native.steps := by
  induction events with
  | nil =>
    intro b b' _ _ hqueue _ h
    obtain ⟨-, rfl⟩ := Outcome.done.inj h
    exact ⟨.nil rfl rfl rfl, hqueue, rfl, rfl⟩
  | cons e rest ih =>
    intro b b' hled hlive hqueue htime h
    obtain ⟨b₁, hone, h⟩ := applyEvents_cons_eq_done h
    rw [eventStages, momentsOf_event_cons, hone]
    obtain ⟨d, n, L, hledger⟩ := hled
    have hkept := traced_led.change (b := b.popped)
      ⟨⟨d, n, L, hledger.aside (aside_onSim ⟨⟨rfl, rfl, rfl, rfl⟩, rfl⟩)⟩, hlive⟩
      (has_of_applyChange_eq hone) e.value
    rw [hone] at hkept
    obtain ⟨hfirst, hqueue₁, hnow₁, hsteps₁⟩ :=
      applyChange_replays hledger hlive hqueue (htime e List.mem_cons_self) hone
    have htime₁ : ∀ a ∈ rest, a.time = b₁.native.now := by
      intro a ha
      rw [hnow₁]
      exact htime a (List.mem_cons_of_mem e ha)
    obtain ⟨hrest, hqueue', hnow', hsteps'⟩ := ih b₁ b' hkept.1.1 hkept.1.2 hqueue₁ htime₁ h
    exact ⟨hfirst.trans hrest, hqueue', hnow'.trans hnow₁, hsteps'.trans hsteps₁⟩

/-- The state in which a step leaves the simulator: as it was if there was no event, and else at the
time of the next one, without the events of this time. -/
def Moves (b : SimBench T) (found : StepResult) (b' : SimBench T) : Prop :=
  match b.native.queue with
  | [] => found = .done ∧ b'.native.queue = [] ∧ b'.native.now = b.native.now ∧
      b'.native.steps = b.native.steps
  | e :: rest => found = .continued ∧
      b'.native.queue = (e :: rest).dropWhile (·.time = e.time) ∧ b'.native.now = e.time ∧
      b'.native.steps = b.native.steps + 1

/-- The moments of a step are those after its flush. -/
theorem moments_of_flush {b₁ : SimBench T} {order : VisitOrder SignalId} {summary : FlushSummary}
    (h : b.flush order = .done summary b₁) :
    b.moments (.step order) = momentsOf b₁.advanceStages := by
  rw [moments, stages, stepStages, h, momentsOf_flush_cons]

/-- A flush applies no event. -/
theorem replays_of_flush {order : VisitOrder SignalId} {summary : FlushSummary}
    (h : b.flush order = .done summary b') :
    Replays b [] b' ∧ b'.native.steps = b.native.steps := by
  have hevents := sameCourse_of_flush h
  have hsignals := flush_respected respected_sameSignals.toRespectedByStarts b order
  have hdelivered := flush_respected respected_delivered.toRespectedByStarts b order
  rw [h] at hsignals hdelivered
  exact ⟨.nil hevents.queue hsignals.native.signals hdelivered.native, hsignals.native.steps⟩

/-- **A step** without its flush applies the events of the next time. -/
theorem advance_replays (h : Ledger d n b L) (hlive : b.mux.isPoisoned = false)
    {found : StepResult} (hdone : b.advance = .done found b') :
    Replays b (momentsOf b.advanceStages) b' ∧ Moves b found b' := by
  rw [advance] at hdone
  rw [advanceStages, Moves]
  cases hqueue : b.native.queue with
  | nil =>
    rw [nextTime?_nil hqueue] at hdone ⊢
    obtain ⟨rfl, rfl⟩ := Outcome.done.inj hdone
    exact ⟨.nil rfl rfl rfl, rfl, hqueue, rfl, rfl⟩
  | cons e rest =>
    rw [nextTime?_cons hqueue] at hdone ⊢
    dsimp only at hdone ⊢
    rw [← hqueue]
    set b₁ := b.onSim fun s => { s with now := e.time } with hb₁
    have haside : Aside b b₁ := aside_onSim ⟨⟨rfl, rfl, rfl, rfl⟩, rfl⟩
    -- neither to move the time on nor to count the step applies an event
    have hmove : Replays b [] b₁ := .nil rfl rfl rfl
    cases happly : applyEvents (b.native.queue.takeWhile (·.time = e.time)) b₁ with
    | fault f =>
      rw [happly] at hdone
      cases hdone
    | failed error b₂ =>
      rw [happly] at hdone
      cases hdone
    | done _ b₂ =>
      rw [happly] at hdone
      obtain ⟨rfl, rfl⟩ := Outcome.done.inj hdone
      obtain ⟨hreplays, hleft, hnow, hsteps⟩ := applyEvents_replays _ _ b₁ b₂
        ⟨d, n, L, h.aside haside⟩ hlive List.takeWhile_append_dropWhile.symm
        time_of_mem_takeWhile happly
      have hlast : Replays b₂ [] (b₂.onSim fun s => { s with steps := s.steps + 1 }) :=
        .nil rfl rfl rfl
      have hall := (hmove.trans hreplays).trans hlast
      rw [List.append_nil] at hall
      exact ⟨hall, rfl, hleft, hnow, congrArg (· + 1) hsteps⟩

/-- **A step** applies the events of the next time. -/
theorem step_replays (hled : ∃ d n L, Ledger d n b L) {order : VisitOrder SignalId}
    {found : StepResult} (h : b.step order = .done found b') :
    Replays b (b.moments (.step order)) b' ∧ Moves b found b' := by
  obtain ⟨summary, b₁, hflush, hadvance⟩ := step_eq_done h
  have hkept := traced_led.flush hled order
  rw [hflush] at hkept
  obtain ⟨d, n, L, hledger⟩ := hkept.1.1
  obtain ⟨hfirst, hsteps⟩ := replays_of_flush hflush
  obtain ⟨hreplays, hmoves⟩ := advance_replays hledger hkept.1.2 hadvance
  have hevents := sameCourse_of_flush hflush
  rw [moments_of_flush hflush]
  refine ⟨hfirst.trans hreplays, ?_⟩
  -- the flush has left the queue and the time as they were
  rw [Moves, ← hevents.queue, ← hevents.now, ← hsteps]
  exact hmoves

end Bench

/-! ### The times of events -/

/-- The number of times at which there are events. -/
def distinctTimes (events : List Event) : Nat := (events.map (·.time)).toFinset.card

/-- The time of the last event, or the one before all events. -/
def lastTime (events : List Event) (now : SimTime) : SimTime :=
  (events.getLast?.map (·.time)).getD now

/-- What is left of a queue in order without the events of its first time is later. -/
theorem lt_of_mem_dropWhile {e : Event} {rest : List Event}
    (h : (e :: rest).Pairwise (·.before · = true)) {a : Event}
    (ha : a ∈ (e :: rest).dropWhile (·.time = e.time)) : e.time.fs < a.time.fs := by
  have hle : ∀ c ∈ e :: rest, e.time.fs ≤ c.time.fs := by
    intro c hc
    rcases List.mem_cons.mp hc with rfl | hc
    · exact UInt64.le_refl _
    · exact Event.time_le_of_before ((List.pairwise_cons.mp h).1 c hc)
  have hmem : ∀ c ∈ (e :: rest).dropWhile (·.time = e.time), c ∈ e :: rest := fun c hc =>
    (List.dropWhile_sublist _).mem hc
  have hleft := h.sublist (List.dropWhile_sublist (·.time = e.time))
  have hhead := List.head?_dropWhile_not (fun a : Event => decide (a.time = e.time)) (e :: rest)
  cases hlater : (e :: rest).dropWhile (·.time = e.time) with
  | nil =>
    rw [hlater] at ha
    cases ha
  | cons c later =>
    rw [hlater] at ha hleft hhead hmem
    have hother : c.time ≠ e.time := by simpa using hhead
    have hc : e.time.fs < c.time.fs := by
      refine UInt64.lt_of_le_of_ne (hle c (hmem c List.mem_cons_self)) fun heq => ?_
      exact hother (congrArg SimTime.mk heq.symm)
    rcases List.mem_cons.mp ha with rfl | ha
    · exact hc
    · exact UInt64.lt_of_lt_of_le hc
        (Event.time_le_of_before ((List.pairwise_cons.mp hleft).1 a ha))

/-- A step takes the events of one time off a queue in order. -/
theorem distinctTimes_cons {e : Event} {rest : List Event}
    (h : (e :: rest).Pairwise (·.before · = true)) :
    distinctTimes (e :: rest) = distinctTimes ((e :: rest).dropWhile (·.time = e.time)) + 1 := by
  have hnot : e.time ∉
      (((e :: rest).dropWhile (·.time = e.time)).map (·.time)).toFinset := by
    intro hmem
    obtain ⟨a, ha, htime⟩ := List.mem_map.mp (List.mem_toFinset.mp hmem)
    have hlt := lt_of_mem_dropWhile h ha
    rw [htime] at hlt
    exact UInt64.lt_irrefl _ hlt
  rw [distinctTimes, distinctTimes, ← Finset.card_insert_of_notMem hnot]
  congr 1
  ext time
  rw [Finset.mem_insert, List.mem_toFinset, List.mem_toFinset]
  constructor
  · intro hmem
    by_cases heq : time = e.time
    · exact .inl heq
    · obtain ⟨a, ha, rfl⟩ := List.mem_map.mp hmem
      rw [← List.takeWhile_append_dropWhile (p := (·.time = e.time)) (l := e :: rest),
        List.mem_append] at ha
      rcases ha with ha | ha
      · exact absurd (by simpa using List.mem_takeWhile_imp ha) heq
      · exact .inr (List.mem_map_of_mem ha)
  · rintro (rfl | hmem)
    · exact List.mem_cons_self
    · exact (List.dropWhile_sublist _).map _ |>.mem hmem

theorem lastTime_cons (e : Event) (rest : List Event) (now : SimTime) :
    lastTime (e :: rest) now =
      lastTime ((e :: rest).dropWhile (·.time = e.time)) e.time := by
  have hsplit : e :: rest = (e :: rest).takeWhile (·.time = e.time) ++
      (e :: rest).dropWhile (·.time = e.time) := List.takeWhile_append_dropWhile.symm
  rw [lastTime, hsplit, List.getLast?_append, lastTime, ← hsplit]
  cases hlast : ((e :: rest).dropWhile (·.time = e.time)).getLast? with
  | some a => rfl
  | none =>
    -- all events are of the first time
    have hfirst : (e :: rest).takeWhile (·.time = e.time) ≠ [] := by simp
    rw [Option.none_or, List.getLast?_eq_getLast_of_ne_nil hfirst]
    simpa using List.mem_takeWhile_imp (List.getLast_mem hfirst)

/-! ### Steps and their number -/

namespace Bench

variable {T : Type} [Scheduler T]

/-- The loop that takes steps as long as there are events comes from `b` to an outcome in `n` steps,
whatever the number of steps that it is allowed. -/
inductive StepsTo : (Nat → VisitOrder SignalId) → SimBench T → Nat →
    Outcome SimError (SimBench T) Unit → Prop
  | fault {orders b f} (h : b.step (orders 0) = .fault f) : StepsTo orders b 1 (.fault f)
  | failed {orders b e b'} (h : b.step (orders 0) = .failed e b') :
    StepsTo orders b 1 (.failed e b')
  | done {orders b b'} (h : b.step (orders 0) = .done .done b') : StepsTo orders b 1 (.done () b')
  | continued {orders b b₁ n o} (h : b.step (orders 0) = .done .continued b₁)
    (rest : StepsTo (fun i => orders (i + 1)) b₁ n o) : StepsTo orders b (n + 1) o

/-- A step goes on just when there is an event, and then there are fewer. -/
theorem found_of_step {b b' : SimBench T} {order : VisitOrder SignalId} {found : StepResult}
    (h : b.step order = .done found b') :
    match found with
    | .done => b.native.queue = []
    | .continued => b'.native.queue.length < b.native.queue.length := by
  obtain ⟨summary, b₁, hflush, hadvance⟩ := step_eq_done h
  rw [← (sameCourse_of_flush hflush).queue]
  have hfound := (queue_of_advance hadvance).1
  cases found with
  | done => exact hfound.mp rfl
  | continued => exact length_lt_of_advance hadvance fun hqueue => by simpa using hfound.mpr hqueue

/-- **The loop comes to an end**, for each step that goes on takes an event off the queue. -/
theorem terminates (m : Nat) :
    ∀ (orders : Nat → VisitOrder SignalId) (b : SimBench T), b.native.queue.length ≤ m →
      ∃ n ≤ b.native.queue.length + 1, StepsTo orders b n (runSteps m orders b) := by
  induction m with
  | zero =>
    intro orders b hm
    rw [runSteps]
    cases hstep : b.step (orders 0) with
    | fault f => exact ⟨1, by omega, .fault hstep⟩
    | failed e b₁ => exact ⟨1, by omega, .failed hstep⟩
    | done found b₁ =>
      have hfound := found_of_step hstep
      cases found with
      | done => exact ⟨1, by omega, .done hstep⟩
      | continued =>
        dsimp only at hfound
        omega
  | succ m ih =>
    intro orders b hm
    rw [runSteps]
    cases hstep : b.step (orders 0) with
    | fault f => exact ⟨1, by omega, .fault hstep⟩
    | failed e b₁ => exact ⟨1, by omega, .failed hstep⟩
    | done found b₁ =>
      have hfound := found_of_step hstep
      cases found with
      | done => exact ⟨1, by omega, .done hstep⟩
      | continued =>
        dsimp only at hfound
        obtain ⟨n, hn, hrest⟩ := ih (fun i => orders (i + 1)) b₁ (by omega)
        exact ⟨n + 1, by omega, .continued hstep hrest⟩

/-- An error that stops the loop is one of the context. -/
theorem StepsTo.error_eq {orders : Nat → VisitOrder SignalId} {b : SimBench T} {n : Nat}
    {o : Outcome SimError (SimBench T) Unit} (h : StepsTo orders b n o) :
    ∀ e b', o = .failed e b' → ∃ cause, e = .mux cause := by
  induction h with
  | fault _ => simp
  | done _ => simp
  | continued _ _ ih => exact ih
  | @failed orders b error b₁ hstep =>
    intro e b' heq
    obtain ⟨rfl, -⟩ := Outcome.failed.inj heq
    rw [step] at hstep
    cases hflush : b.flush (orders 0) with
    | fault f =>
      rw [hflush] at hstep
      cases hstep
    | failed cause b₂ =>
      rw [hflush] at hstep
      exact ⟨cause, (Outcome.failed.inj hstep).1.symm⟩
    | done summary b₂ =>
      rw [hflush] at hstep
      dsimp only at hstep
      cases hnext : b₂.native.nextTime? with
      | none =>
        rw [hnext] at hstep
        cases hstep
      | some now =>
        rw [hnext] at hstep
        dsimp only at hstep
        split at hstep
        · cases hstep
        · exact ⟨_, (Outcome.failed.inj hstep).1.symm⟩
        · cases hstep

/-- A step that finds no event is the last one. -/
theorem step_replays_last {b b' : SimBench T} {order : VisitOrder SignalId}
    (hled : ∃ d n L, Ledger d n b L) (hstep : b.step order = .done .done b') :
    Replays b (b.moments (.step order)) b' ∧ b'.native.queue = [] ∧
      b'.native.now = lastTime b.native.queue b.native.now ∧
      b'.native.steps = b.native.steps + distinctTimes b.native.queue := by
  obtain ⟨hreplays, hmoves⟩ := step_replays hled hstep
  have hqueue : b.native.queue = [] := found_of_step hstep
  rw [Moves, hqueue] at hmoves
  rw [hqueue]
  exact ⟨hreplays, hmoves.2⟩

/-- A step that finds an event, and after it what applies the rest of the queue. -/
theorem step_replays_first {b b₁ b' : SimBench T} {order : VisitOrder SignalId}
    {moments : List (Moment T)} (hled : ∃ d n L, Ledger d n b L) (htimely : b.native.Timely)
    (hstep : b.step order = .done .continued b₁) (hrest : Replays b₁ moments b')
    (hnow : b'.native.now = lastTime b₁.native.queue b₁.native.now)
    (hsteps : b'.native.steps = b₁.native.steps + distinctTimes b₁.native.queue) :
    Replays b (b.moments (.step order) ++ moments) b' ∧
      b'.native.now = lastTime b.native.queue b.native.now ∧
      b'.native.steps = b.native.steps + distinctTimes b.native.queue := by
  obtain ⟨hreplays, hmoves⟩ := step_replays hled hstep
  have hordered := htimely.ordered
  rw [Moves] at hmoves
  cases hqueue : b.native.queue with
  | nil =>
    rw [hqueue] at hmoves
    cases hmoves.1
  | cons e rest =>
    rw [hqueue] at hmoves hordered
    obtain ⟨-, hqueue₁, hnow₁, hsteps₁⟩ := hmoves
    refine ⟨hreplays.trans hrest, ?_, ?_⟩
    · rw [hnow, hqueue₁, hnow₁, lastTime_cons]
    · rw [hsteps, hqueue₁, hsteps₁, distinctTimes_cons hordered]
      omega

/-- **The steps of a run** apply the whole queue. -/
theorem runSteps_replays (m : Nat) :
    ∀ (orders : Nat → VisitOrder SignalId) (b b' : SimBench T), (∃ d n L, Ledger d n b L) →
      b.native.Timely → b.native.queue.length ≤ m → runSteps m orders b = .done () b' →
      Replays b (momentsOf (runStepsStages m orders b)) b' ∧ b'.native.queue = [] ∧
        b'.native.now = lastTime b.native.queue b.native.now ∧
        b'.native.steps = b.native.steps + distinctTimes b.native.queue := by
  induction m with
  | zero =>
    intro orders b b' hled _ hm h
    rw [runSteps] at h
    cases hstep : b.step (orders 0) with
    | fault f =>
      rw [hstep] at h
      cases h
    | failed e b₁ =>
      rw [hstep] at h
      cases h
    | done found b₁ =>
      rw [hstep] at h
      obtain ⟨-, rfl⟩ := Outcome.done.inj h
      have hfound := found_of_step hstep
      cases found with
      | done => exact step_replays_last hled hstep
      | continued =>
        dsimp only at hfound
        omega
  | succ m ih =>
    intro orders b b' hled htimely hm h
    rw [runSteps] at h
    rw [runStepsStages, momentsOf_append]
    cases hstep : b.step (orders 0) with
    | fault f =>
      rw [hstep] at h
      cases h
    | failed e b₁ =>
      rw [hstep] at h
      cases h
    | done found b₁ =>
      rw [hstep] at h
      have hfound := found_of_step hstep
      cases found with
      | done =>
        obtain ⟨-, rfl⟩ := Outcome.done.inj h
        have hlast := step_replays_last hled hstep
        rw [← List.append_nil (b.moments _)] at hlast
        exact hlast
      | continued =>
        dsimp only at hfound h ⊢
        have hkept := traced_led.traced.step hled (orders 0)
        have htimely₁ := step_advances htimely (orders 0)
        rw [hstep] at hkept htimely₁
        obtain ⟨hrest, hempty, hnow, hsteps⟩ :=
          ih _ b₁ b' hkept.1.1 htimely₁.timely (by omega) h
        obtain ⟨hreplays, hnow', hsteps'⟩ :=
          step_replays_first hled htimely hstep hrest hnow hsteps
        exact ⟨hreplays, hempty, hnow', hsteps'⟩

/-! ### Runs -/

/-- A host's simulator keeps its books. -/
theorem hostAll_books {first : Nat} (ops : List HostOp) (accepted applied : List Event)
    (b b' : SimBench T) (h : Books first accepted applied b.native)
    (hrun : hostAll ops b = .ok b') :
    ∃ accepted' applied', Books first accepted' applied' b'.native := by
  refine hostAll_induction (P := fun c : SimBench T =>
      ∃ accepted applied, Books first accepted applied c.native) ?_ ops b b'
    ⟨accepted, applied, h⟩ hrun
  rintro b op b₁ ⟨accepted, applied, h⟩ hop
  have hturn : b.native.turn (⟨b.mux, b.scheduler, b.log, op⟩ : SimTurn T) = .ok b₁.native := by
    show (b.host op).map (·.native) = _
    rw [hop]
    rfl
  exact ⟨_, _, (h.turn hturn).1⟩

/-- So its queue is in order. -/
theorem hostAll_timely {first : Nat} (ops : List HostOp) (accepted applied : List Event)
    (b b' : SimBench T) (h : Books first accepted applied b.native)
    (hrun : hostAll ops b = .ok b') : b'.native.Timely := by
  obtain ⟨accepted', applied', hbooks⟩ := hostAll_books ops accepted applied b b' h hrun
  exact hbooks.timely

/-- What a run from `b` has come to that has not stopped on an error. -/
structure Replayed (b : SimBench T) (orders : Nat → VisitOrder SignalId) (time : SimTime)
    (b' : SimBench T) : Prop extends Replays b (b.moments (.run orders)) b' where
  /-- All events of the queue have been applied, each of them once. -/
  events : (b.moments (.run orders)).map (·.event) = b.native.queue
  /-- The queue is in the order of time, and of scheduling at one time. -/
  ordered : b.native.queue.Pairwise (·.before · = true)
  /-- Callbacks are called at these moments only. -/
  called : (b.moments (.run orders)).flatMap (·.calls) = b.calls (.run orders)
  empty : b'.native.queue = []
  now : b'.native.now = lastTime b.native.queue b.native.now
  answer : time = b'.native.now
  steps : b'.native.steps = b.native.steps + distinctTimes b.native.queue

/-- **A run computes the sorted replay of the queue**, in every state that a context and its
simulator can reach: it comes to an end after at most one step for each event, and one more, and if
the context reports no error meanwhile, then it has replayed the queue.  What else can stop it is an
event whose signal does not exist. -/
theorem run_replays {b₀ b : SimBench T} (hnew : New b₀) (hqueue : b₀.native.queue = [])
    {ops : List HostOp} (hrun : hostAll ops b₀ = .ok b) (orders : Nat → VisitOrder SignalId) :
    (∃ n ≤ b.native.queue.length + 1,
        StepsTo orders b n (runSteps b.native.queue.length orders b)) ∧
      ((∃ cause b', b.run orders = .failed (.mux cause) b') ∨
        (∃ time b', b.run orders = .done time b' ∧ Replayed b orders time b') ∨
        ∃ f, b.run orders = .fault f ∧ b.native.Misses f) ∧
      (b.native.Grounded → ∀ f, b.run orders ≠ .fault f) := by
  obtain ⟨k, hk, hsteps⟩ := terminates _ orders b (Nat.le_refl _)
  obtain ⟨⟨d, L, hledger⟩, -⟩ := hostAll_ledger ops 0 0 b₀ b [] hnew.ledger.1 hrun
  have htimely := hostAll_timely ops [] [] b₀ b (books_start hqueue) hrun
  have hmisses : ∀ f, b.run orders = .fault f → b.native.Misses f := by
    intro f hf
    have hkept := traced_led.traced.run ⟨d, _, L, hledger⟩ orders
    rw [hf] at hkept
    exact hkept.resolve_left id
  refine ⟨⟨k, hk, hsteps⟩, ?_, fun hgrounded f hf => hgrounded.not_misses (hmisses f hf)⟩
  cases hend : runSteps b.native.queue.length orders b with
  | fault f =>
    have hfault : b.run orders = .fault f := by
      rw [run, hend]
      rfl
    exact .inr (.inr ⟨f, hfault, hmisses f hfault⟩)
  | failed e b' =>
    obtain ⟨cause, rfl⟩ := hsteps.error_eq e b' hend
    rw [run, hend]
    exact .inl ⟨cause, b', rfl⟩
  | done _ b' =>
    obtain ⟨hreplays, hempty, hnow, hcount⟩ :=
      runSteps_replays _ orders b b' ⟨d, _, L, hledger⟩ htimely (Nat.le_refl _) hend
    have hevents := hreplays.queue
    rw [hempty, List.append_nil] at hevents
    rw [run, hend]
    refine .inr (.inl ⟨_, _, rfl,
      ⟨hreplays.queue, hreplays.value, hreplays.moment, hreplays.delivered⟩,
      hevents.symm, htimely.ordered, flatMap_momentsOf _, hempty, hnow, rfl, hcount⟩)

/-- Four events, the last of them for an earlier time; one leaves its signal as it is. -/
def fourEvents : List HostOp :=
  [.addSignal "ready" .zero, .addSignal "valid" .zero, .context (.watch ⟨0⟩ .either ⟨1⟩),
    .context (.waitNow ⟨0⟩ .rising ⟨2⟩), .schedule ⟨5⟩ ⟨0⟩ .one, .schedule ⟨5⟩ ⟨1⟩ .zero,
    .schedule ⟨5⟩ ⟨0⟩ .zero, .schedule ⟨3⟩ ⟨1⟩ .one]

/-- The event at the earlier time makes a change of the one that would have made none. -/
theorem run_replays_fourEvents :
    ∃ b₀ b b' : SimBench ScriptedScheduler, New b₀ ∧ b₀.native.queue = [] ∧
      hostAll fourEvents b₀ = .ok b ∧ b.run (fun _ => .recorded _) = .done ⟨5⟩ b' ∧
      (b.moments (.run fun _ => .recorded _)).map (fun m => (m.event.seq, m.calls.length)) =
        [(3, 0), (0, 2), (1, 0), (2, 1)] ∧
      b'.native.steps = 2 ∧ Replayed b (fun _ => .recorded _) ⟨5⟩ b' := by
  obtain ⟨b₀, b, b', hnew, hqueue, hhost, hrun, hmoments, hsteps⟩ :
      ∃ b₀ b b' : SimBench ScriptedScheduler, New b₀ ∧ b₀.native.queue = [] ∧
        hostAll fourEvents b₀ = .ok b ∧ b.run (fun _ => .recorded _) = .done ⟨5⟩ b' ∧
        (b.moments (.run fun _ => .recorded _)).map (fun m => (m.event.seq, m.calls.length)) =
          [(3, 0), (0, 2), (1, 0), (2, 1)] ∧
        b'.native.steps = 2 :=
    ⟨_, _, _, ⟨{ pool := { capacity := 2 } }, [], _, .initial, .failingAt [] ⟨"", ""⟩,
      rfl, ⟨rfl, rfl⟩, rfl, rfl, rfl, rfl⟩, rfl, rfl, rfl, rfl, rfl⟩
  refine ⟨b₀, b, b', hnew, hqueue, hhost, hrun, hmoments, hsteps, ?_⟩
  rcases (run_replays hnew hqueue hhost fun _ => .recorded _).2.1 with ⟨cause, b₁, hfailed⟩ |
    ⟨time, b₁, hdone, hreplayed⟩ | ⟨f, hfault, -⟩
  · rw [hrun] at hfailed
    cases hfailed
  · obtain ⟨rfl, rfl⟩ := Outcome.done.inj (hrun.symm.trans hdone)
    exact hreplayed
  · rw [hrun] at hfault
    cases hfault

end Bench

end EdgeWait
