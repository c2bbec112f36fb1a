/-
Changes of one signal in turn, and the task that waits for them.

* `applyEvents_ticks`, `advance_ticks`, `runSteps_ticks` — events that give the signal another value
  each time hand the task over as its demands ask (`Ticks`), whatever comes on other signals between
  them;
* `rearms_of_armed` — a wait that is added again after each step that has woken the task wakes it at
  every event that it is for (`Rearms`), if no two events of the signal come at one time.

Design notes: an event is reported just when it is a change, so what is asked of the events to come
is that each gives the signal another value than the one before it (`Swings`), beginning with the
value that the signal has; and that all of them have signals, so that none stops the simulator.  The
context may read unknown values as low, so all of them are known.
-/
import EdgeWait.Proofs.Attending

namespace EdgeWait

open Sim

/-! ### Values that change -/

/-- Each of the values is known, and another one than the value before it. -/
inductive Swings : Logic → List Logic → Prop
  | nil (v : Logic) : Swings v []
  | cons {v w : Logic} {vs : List Logic} (differs : w ≠ v) (known : w.isKnown = true)
      (rest : Swings w vs) : Swings v (w :: vs)

/-- The values that events give a signal. -/
def valuesOn (signal : SignalId) (events : List Event) : List Logic :=
  (events.filter (·.signal = signal)).map (·.value)

theorem valuesOn_append (signal : SignalId) (events events' : List Event) :
    valuesOn signal (events ++ events') = valuesOn signal events ++ valuesOn signal events' := by
  rw [valuesOn, List.filter_append, List.map_append, valuesOn, valuesOn]

/-- All events to come are on signals that exist, and the signal changes with each of them that is
on it. -/
def Sim.SwingsOn (s : Sim) (signal : SignalId) : Prop :=
  s.Grounded ∧ ∃ v, s.value? signal = some v ∧ Swings v (valuesOn signal s.queue)

theorem Mux.observe_of_isKnown {σ η : Type} (m : Mux σ η) {v : Logic} (h : v.isKnown = true) :
    m.observe v = v := by
  have hlow : v.unknownAsZero = v := by
    cases v with
    | zero => rfl
    | one => rfl
    | _ => cases h
  rw [observe, hlow, ite_self]

namespace Bench

variable {T : Type} [Scheduler T] {task : TaskId} {signal : SignalId} {c c' c'' : Sim}
  {ds : List (Demand SignalId)} {vs ws : List Logic}
  {b b' b'' : SimBench (SchedulerRecord T)} {L : List SimHolding}

/-! ### Events and steps -/

/-- Events that have given the signal the values `vs` have led from `b`, where the task has the
demands `ds`, to `b'`. -/
structure Ticks (task : TaskId) (signal : SignalId) (b : SimBench (SchedulerRecord T))
    (ds : List (Demand SignalId)) (vs : List Logic) (c' : Sim)
    (b' : SimBench (SchedulerRecord T)) : Prop where
  tends : ∃ L', Tends task signal c' (Demand.unmet vs ds) b' L'
  swings : c'.SwingsOn signal
  keeps : Keeps b b'
  wakes : Wakes task b (Demand.told vs ds) b'

theorem Ticks.trans (h : Ticks task signal b ds vs c' b')
    (h' : Ticks task signal b' (Demand.unmet vs ds) ws c'' b'') :
    Ticks task signal b ds (vs ++ ws) c'' b'' := by
  refine ⟨?_, h'.swings, h.keeps.trans h'.keeps, ?_⟩
  · rw [Demand.unmet_append]
    exact h'.tends
  · rw [Demand.told_append]
    exact h.wakes.trans h'.wakes

/-- What is no event on the signal does not matter. -/
theorem Tends.ticks (h : Tends task signal c' ds b' L) (hswings : c'.SwingsOn signal)
    (hkeeps : Keeps b b') (hwakes : Wakes task b [] b') : Ticks task signal b ds [] c' b' :=
  ⟨⟨L, h⟩, hswings, hkeeps, hwakes⟩

theorem applyChange_of_value {b : SimBench (SchedulerRecord T)} {changed : SignalId}
    {before : Signal} (hbefore : b.native.signal? changed = some before) :
    b.applyChange changed before.value = .done () b := by
  rw [applyChange_eq, hbefore]
  exact if_pos rfl

omit [Scheduler T] in
theorem Tracked.value?_eq (h : b.Tracked (Hosts c) L) (changed : SignalId) :
    b.native.value? changed = c.value? changed := by
  rw [value?, signal?, h.extra.1.world.signals, value?, signal?]

/-- **A change of the signal** is told to the demands. -/
theorem applyChange_on (h : Tends task signal c ds b L) {v w : Logic}
    (hvalue : c.value? signal = some v) (hdiffers : w ≠ v) (hknown : w.isKnown = true) :
    ∃ b' L', b.applyChange signal w = .done () b' ∧ Keeps b b' ∧
      Tends task signal (c.withValue signal w) (Demand.unmet [w] ds) b' L' ∧
      Wakes task b (Demand.told [w] ds) b' := by
  obtain ⟨before, hbefore, rfl⟩ :=
    Option.map_eq_some_iff.mp ((h.tracked.value?_eq signal).trans hvalue)
  obtain ⟨b', L', heq, hkeeps, htends, hwakes⟩ :=
    applyChange_tends h hbefore (Ne.symm hdiffers)
  have hsignal : ∀ d ∈ ds, decide (d.signal = signal) = true := fun d hd =>
    decide_eq_true (h.on_signal d hd)
  rw [Mux.observe_of_isKnown _ hknown] at htends hwakes
  have hleft : ds.filter (fun d => !(decide (d.signal = signal) && d.isMet w)) =
      ds.filter (!·.isMet w) :=
    List.filter_congr fun d hd => by rw [hsignal d hd, Bool.true_and]
  have htold : ds.filter (fun d => decide (d.signal = signal) && d.hears w) =
      ds.filter (·.hears w) :=
    List.filter_congr fun d hd => by rw [hsignal d hd, Bool.true_and]
  rw [hleft] at htends
  rw [htold] at hwakes
  refine ⟨b', L', heq, hkeeps, htends, ?_⟩
  rw [Demand.told, Demand.told, List.append_nil]
  exact hwakes

/-- **A change of another signal** is not, if it is one at all. -/
theorem applyChange_off (h : Tends task signal c ds b L) {changed : SignalId}
    (hhas : c.Has changed) (hother : changed ≠ signal) (value : Logic) :
    ∃ b' L' c', b.applyChange changed value = .done () b' ∧ Keeps b b' ∧ SameCourse c c' ∧
      c'.value? signal = c.value? signal ∧ Tends task signal c' ds b' L' ∧ Wakes task b [] b' := by
  obtain ⟨before, hbefore⟩ := hhas.exists_signal?
  rw [signal?, ← h.tracked.extra.1.world.signals, ← signal?] at hbefore
  by_cases hdiffers : before.value = value
  · subst hdiffers
    exact ⟨b, L, c, applyChange_of_value hbefore, .refl b, .refl c, rfl, h, .of_scheduler rfl⟩
  · obtain ⟨b', L', heq, hkeeps, htends, hwakes⟩ := applyChange_tends h hbefore hdiffers
    have hsignal : ∀ d ∈ ds, decide (d.signal = changed) = false := fun d hd =>
      decide_eq_false fun hc => hother (hc.symm.trans (h.on_signal d hd))
    rw [List.filter_eq_self.mpr fun d hd => by rw [hsignal d hd]; rfl] at htends
    rw [List.filter_eq_nil_iff.mpr fun d hd => by simp [hsignal d hd]] at hwakes
    refine ⟨b', L', _, heq, hkeeps, sameCourse_withValue c changed value, ?_, htends, hwakes⟩
    rw [value?_withValue]
    simp only [if_neg hother]
    exact Option.map_id'

/-- **An event** from the head of the queue. -/
theorem applyEvent_ticks (h : Tends task signal c ds b L) (hswings : c.SwingsOn signal)
    {e : Event} {rest : List Event} (hqueue : c.queue = e :: rest) :
    ∃ b' c', b.popped.applyChange e.signal e.value = .done () b' ∧ c'.queue = rest ∧ c'.now = c.now ∧
      Ticks task signal b ds (valuesOn signal [e]) c' b' := by
  obtain ⟨hgrounded, v, hvalue, hvalues⟩ := hswings
  have hhas : c.Has e.signal := hgrounded e (hqueue ▸ List.mem_cons_self)
  rw [hqueue, ← List.singleton_append, valuesOn_append] at hvalues
  have hpopped := h.onSim plain_tail
  set c₁ : Sim := { c with queue := c.queue.tail } with hc₁
  have hvalue₁ : c₁.value? signal = some v := hvalue
  have hrest : c₁.queue = rest := by
    show c.queue.tail = rest
    rw [hqueue]
    rfl
  have hkeeps := Keeps.onSim b fun s => { s with queue := s.queue.tail }
  have hnarrows : Narrows c c₁ := ⟨rfl, List.tail_suffix _⟩
  -- an event on another signal says nothing to the task, and leaves the value of `signal`
  by_cases hon : e.signal = signal
  · subst hon
    have hone : valuesOn e.signal [e] = [e.value] := by simp [valuesOn]
    rw [hone] at hvalues ⊢
    cases hvalues with
    | cons hdiffers hknown hlater =>
      obtain ⟨b', L', heq, hkeeps', htends, hwakes⟩ :=
        applyChange_on hpopped hvalue₁ hdiffers hknown
      have hsame := sameCourse_withValue c₁ e.signal e.value
      refine ⟨b', _, heq, hsame.queue.trans hrest, hsame.now, ⟨L', htends⟩,
        ⟨hgrounded.of_narrows (hnarrows.trans hsame.narrows), e.value, ?_, ?_⟩,
        hkeeps.trans hkeeps', hwakes⟩
      · rw [value?_withValue, hvalue₁]
        simp
      · rw [hsame.queue, hrest]
        exact hlater
  · have hnone : valuesOn signal [e] = [] := by simp [valuesOn, hon]
    rw [hnone] at hvalues ⊢
    obtain ⟨b', L', c', heq, hkeeps', hsame, hsignal, htends, hwakes⟩ :=
      applyChange_off hpopped ((hnarrows.has_iff e.signal).mpr hhas) hon e.value
    have hgrounded' := hgrounded.of_narrows (hnarrows.trans hsame.narrows)
    refine ⟨b', c', heq, hsame.queue.trans hrest, hsame.now,
      htends.ticks ⟨hgrounded', v, hsignal.trans hvalue₁, ?_⟩ (hkeeps.trans hkeeps') hwakes⟩
    rw [hsame.queue, hrest]
    exact hvalues

/-- **Events** from the head of the queue, in turn. -/
theorem applyEvents_ticks (later events : List Event) :
    ∀ {c : Sim} {ds : List (Demand SignalId)} {b : SimBench (SchedulerRecord T)}
      {L : List SimHolding}, Tends task signal c ds b L → c.SwingsOn signal →
      c.queue = events ++ later →
      ∃ b' c', applyEvents events b = .done () b' ∧ c'.queue = later ∧ c'.now = c.now ∧
        Ticks task signal b ds (valuesOn signal events) c' b' := by
  induction events with
  | nil =>
    intro c ds b L h hswings hqueue
    exact ⟨b, c, rfl, hqueue, rfl, h.ticks hswings (.refl b) (.of_scheduler rfl)⟩
  | cons e rest ih =>
    intro c ds b L h hswings hqueue
    obtain ⟨b₁, c₁, heq₁, hqueue₁, hnow₁, hticks₁⟩ := applyEvent_ticks h hswings hqueue
    obtain ⟨L₁, h₁⟩ := hticks₁.tends
    obtain ⟨b', c', heq', hqueue', hnow', hticks'⟩ := ih h₁ hticks₁.swings hqueue₁
    refine ⟨b', c', ?_, hqueue', hnow'.trans hnow₁, ?_⟩
    · rw [applyEvents_cons, heq₁]
      exact heq'
    · rw [← List.singleton_append, valuesOn_append]
      exact hticks₁.trans hticks'

/-- **A step** without its flush applies the events of one time. -/
theorem advance_ticks (h : Tends task signal c ds b L) (hswings : c.SwingsOn signal) {e : Event}
    {rest : List Event} (hqueue : c.queue = e :: rest) :
    ∃ b' c', b.advance = .done .continued b' ∧
      c'.queue = (e :: rest).dropWhile (·.time = e.time) ∧ c'.now = e.time ∧
      Ticks task signal b ds (valuesOn signal ((e :: rest).takeWhile (·.time = e.time))) c' b' := by
  have hworld := h.tracked.extra.1.world
  have hnext : b.native.nextTime? = some e.time := nextTime?_cons (hworld.queue.trans hqueue)
  have hsplit : c.queue = (e :: rest).takeWhile (·.time = e.time) ++
      (e :: rest).dropWhile (·.time = e.time) := by
    rw [List.takeWhile_append_dropWhile, hqueue]
  obtain ⟨b₁, c₁, heq, hqueue₁, hnow₁, hticks⟩ :=
    applyEvents_ticks _ _ (h.onSim (plain_now e.time)) hswings hsplit
  obtain ⟨L₁, h₁⟩ := hticks.tends
  rw [advance, hnext]
  dsimp only
  rw [hworld.queue, hqueue, heq]
  exact ⟨_, { c₁ with steps := c₁.steps + 1 }, rfl, hqueue₁, hnow₁, ⟨L₁, h₁.onSim plain_steps⟩,
    hticks.swings, hticks.keeps.of_onSim.trans (.onSim _ _), hticks.wakes⟩

/-! ### Runs -/

theorem advance_of_queue (h : b.native.queue = []) : b.advance = .done .done b := by
  rw [advance, nextTime?_nil h]

omit [Scheduler T] in
theorem Tracked.queue_eq (h : b.Tracked (Hosts c) L) : b.native.queue = c.queue :=
  h.extra.1.world.queue

/-- To take the events of the first time off a queue makes it shorter. -/
theorem length_dropWhile_time (e : Event) (rest : List Event) :
    ((e :: rest).dropWhile (·.time = e.time)).length ≤ rest.length := by
  rw [List.dropWhile_cons_of_pos (by simp)]
  exact rest.length_dropWhile_le _

/-- A run has nothing to do where there is no event and no wait. -/
theorem runSteps_of_queue (h : Idle b) (hqueue : b.native.queue = []) (n : Nat)
    (orders : Nat → VisitOrder SignalId) : runSteps n orders b = .done () b := by
  have hstep : b.step (orders 0) = .done .done b := by
    rw [h.step, advance_of_queue hqueue]
  cases n with
  | zero => rw [runSteps, hstep]; rfl
  | succ n => rw [runSteps, hstep]

/-- **The steps of a run** apply all events, in turn. -/
theorem runSteps_ticks (n : Nat) :
    ∀ (orders : Nat → VisitOrder SignalId) {c : Sim} {ds : List (Demand SignalId)}
      {b : SimBench (SchedulerRecord T)} {L : List SimHolding}, Tends task signal c ds b L →
      c.SwingsOn signal → b.mux.pending.isEmpty = true → c.queue.length ≤ n →
      ∃ b' c', runSteps n orders b = .done () b' ∧
        Ticks task signal b ds (valuesOn signal c.queue) c' b' := by
  induction n with
  | zero =>
    intro orders c ds b L h hswings hpending hn
    have hqueue : c.queue = [] := List.length_eq_zero_iff.mp (Nat.le_zero.mp hn)
    rw [hqueue]
    exact ⟨b, c, runSteps_of_queue ⟨h.live, hpending⟩ (h.tracked.queue_eq.trans hqueue) _ _,
      h.ticks hswings (.refl b) (.of_scheduler rfl)⟩
  | succ n ih =>
    intro orders c ds b L h hswings hpending hn
    have hidle : Idle b := ⟨h.live, hpending⟩
    cases hqueue : c.queue with
    | nil =>
      exact ⟨b, c, runSteps_of_queue hidle (h.tracked.queue_eq.trans hqueue) _ _,
        h.ticks hswings (.refl b) (.of_scheduler rfl)⟩
    | cons e rest =>
      obtain ⟨b₁, c₁, heq₁, hqueue₁, -, hticks₁⟩ := advance_ticks h hswings hqueue
      obtain ⟨L₁, h₁⟩ := hticks₁.tends
      have hstep : b.step (orders 0) = .done .continued b₁ := (hidle.step _).trans heq₁
      -- a step takes one event at least
      have hshorter : c₁.queue.length ≤ n := by
        rw [hqueue₁]
        rw [hqueue] at hn
        exact (length_dropWhile_time e rest).trans (Nat.le_of_succ_le_succ hn)
      obtain ⟨b', c', heq', hticks'⟩ := ih (fun i => orders (i + 1)) h₁ hticks₁.swings
        (hticks₁.keeps.pending ▸ hpending) hshorter
      refine ⟨b', c', ?_, ?_⟩
      · rw [runSteps, hstep]
        exact heq'
      · rw [← List.takeWhile_append_dropWhile (p := (·.time = e.time)) (l := e :: rest),
          valuesOn_append, ← hqueue₁]
        exact hticks₁.trans hticks'

/-! ### A wait that is added again -/

/-- The calls of the scheduler from `b` to `b'` that have resumed a task. -/
def callsFor (task : TaskId) (b b' : SimBench (SchedulerRecord T)) : List (List TaskId) :=
  (b'.resumed.drop b.resumed.length).filter (task ∈ ·)

omit [Scheduler T] in
theorem Wakes.callsFor_eq {lists : List (List TaskId)} (h : Wakes task b lists b') :
    b.callsFor task b' = lists := by
  obtain ⟨calls, heq, rfl⟩ := h
  rw [callsFor, heq, List.drop_left]

/-- The host takes steps from `b` until there is nothing to come, and after each step that has woken
the task of the wait it adds the wait again.  The task has been woken at these times. -/
inductive Rearms (w : Wait SignalId) : (Nat → VisitOrder SignalId) →
    SimBench (SchedulerRecord T) → List SimTime → SimBench (SchedulerRecord T) → Prop
  | ended {orders b b'} (step : b.step (orders 0) = .done .done b') : Rearms w orders b [] b'
  | asleep {orders b b₁ times b'} (step : b.step (orders 0) = .done .continued b₁)
      (calls : b.callsFor w.task b₁ = [])
      (rest : Rearms w (fun i => orders (i + 1)) b₁ times b') : Rearms w orders b times b'
  | woken {orders b b₁ b₂ times b'} (step : b.step (orders 0) = .done .continued b₁)
      (calls : b.callsFor w.task b₁ ≠ [])
      (again : b₁.addWait w.signal w.edge w.task = .ok b₂)
      (rest : Rearms w (fun i => orders (i + 1)) b₂ times b') :
      Rearms w orders b ((b.callsFor w.task b₁).map (fun _ => b₁.native.now) ++ times) b'

variable {w : Wait SignalId} {orders : Nat → VisitOrder SignalId} {times times' : List SimTime}

/-- There is only one way to do so. -/
theorem Rearms.unique (h : Rearms w orders b times b') (h' : Rearms w orders b times' b'') :
    times' = times ∧ b'' = b' := by
  -- a step can only come out one way, so the other run takes the same turn each time
  induction h generalizing times' b'' with
  | ended hstep =>
    cases h' with
    | ended hstep' => exact ⟨rfl, (Outcome.done.inj (hstep'.symm.trans hstep)).2⟩
    | asleep hstep' => cases hstep'.symm.trans hstep
    | woken hstep' => cases hstep'.symm.trans hstep
  | asleep hstep hcalls _ ih =>
    cases h' with
    | ended hstep' => cases hstep'.symm.trans hstep
    | asleep hstep' _ hrest' =>
      obtain rfl := (Outcome.done.inj (hstep'.symm.trans hstep)).2
      exact ih hrest'
    | woken hstep' hcalls' =>
      obtain rfl := (Outcome.done.inj (hstep'.symm.trans hstep)).2
      exact absurd hcalls hcalls'
  | woken hstep hcalls hagain _ ih =>
    cases h' with
    | ended hstep' => cases hstep'.symm.trans hstep
    | asleep hstep' hcalls' =>
      obtain rfl := (Outcome.done.inj (hstep'.symm.trans hstep)).2
      exact absurd hcalls' hcalls
    | woken hstep' _ hagain' hrest' =>
      obtain rfl := (Outcome.done.inj (hstep'.symm.trans hstep)).2
      obtain rfl := Except.ok.inj (hagain'.symm.trans hagain)
      obtain ⟨rfl, rfl⟩ := ih hrest'
      exact ⟨rfl, rfl⟩

/-- The times of the events that are what a wait is for. -/
def timesFor (w : Wait SignalId) (events : List Event) : List SimTime :=
  ((events.filter (·.signal = w.signal)).filter (w.edge.condition.accepts ·.value)).map (·.time)

theorem timesFor_append (events events' : List Event) :
    timesFor w (events ++ events') = timesFor w events ++ timesFor w events' := by
  simp only [timesFor, List.filter_append, List.map_append]

/-- The wait is all that is pending, or it is registered. -/
inductive Armed (w : Wait SignalId) (c : Sim) (b : SimBench (SchedulerRecord T)) : Prop
  | pending {L : List SimHolding} {p : PendingWaits SignalId}
      (tends : Tends w.task w.signal c [] b L) (empty : p.isEmpty = true)
      (pending : b.mux.pending = p.push w.signal w.edge w.task)
  | registered {L : List SimHolding}
      (tends : Tends w.task w.signal c [⟨w.signal, w.edge, [w.task], .oneShot⟩] b L)
      (pending : b.mux.pending.isEmpty = true)

/-- The flush of a step registers the wait. -/
theorem Armed.step_eq (h : Armed w c b) (order : VisitOrder SignalId) :
    ∃ b₁ L, b.step order = b₁.advance ∧
      Tends w.task w.signal c [⟨w.signal, w.edge, [w.task], .oneShot⟩] b₁ L ∧
      b₁.mux.pending.isEmpty = true ∧ Wakes w.task b [] b₁ := by
  cases h with
  | pending h hp hpending =>
    obtain ⟨summary, b₁, L₁, heq, htends, hwakes⟩ := flush_tends h hp hpending order
    exact ⟨b₁, L₁, step_of_flush heq, htends, (idle_of_flush heq).pending, hwakes⟩
  | @registered L h hpending =>
    have hidle : Idle b := ⟨h.live, hpending⟩
    exact ⟨b, L, hidle.step order, h, hpending, .of_scheduler rfl⟩

/-- **To add the wait** makes it pending, where nothing else is. -/
theorem Tends.addWait (h : Tends w.task w.signal c [] b L)
    (hpending : b.mux.pending.isEmpty = true) :
    ∃ b', b.addWait w.signal w.edge w.task = .ok b' ∧ Armed w c b' := by
  have hadded : b.addWait w.signal w.edge w.task = .ok (b.afterWait w) := by
    rw [addWait_eq, PendingWaits.isEmpty_iff.mp hpending, if_neg List.not_mem_nil]
  exact ⟨_, hadded,
    .pending (h.keep (h.tracked.congr rfl rfl rfl) ⟨h.live, h.scheduler⟩ rfl) hpending rfl⟩

/-- At one time there is no more than one of events that come at different times. -/
theorem filter_takeWhile_time {events : List Event} (time : SimTime)
    (hapart : (events.filter (·.signal = signal)).Pairwise (·.time.fs < ·.time.fs)) :
    (events.takeWhile (·.time = time)).filter (·.signal = signal) = [] ∨
      ∃ a, (events.takeWhile (·.time = time)).filter (·.signal = signal) = [a] ∧
        a.time = time := by
  have hdue := hapart.sublist ((List.takeWhile_sublist (·.time = time)).filter _)
  have htime : ∀ a ∈ (events.takeWhile (·.time = time)).filter (·.signal = signal),
      a.time = time :=
    fun a ha => time_of_mem_takeWhile a (List.mem_of_mem_filter ha)
  generalize (events.takeWhile (·.time = time)).filter (·.signal = signal) = due at hdue htime
  match due with
  | [] => exact .inl rfl
  | [a] => exact .inr ⟨a, rfl, htime a List.mem_cons_self⟩
  | a :: a' :: more =>
    have hlt := (List.pairwise_cons.mp hdue).1 a' List.mem_cons_self
    rw [htime a (by simp), htime a' (by simp)] at hlt
    exact absurd hlt (UInt64.lt_irrefl _)

/-- **A step** wakes the task when it comes to an event that the wait is for, and then the wait can
be added again. -/
theorem Armed.step (h : Armed w c b) (hswings : c.SwingsOn w.signal)
    (hapart : (c.queue.filter (·.signal = w.signal)).Pairwise (·.time.fs < ·.time.fs))
    {e : Event} {rest : List Event} (hqueue : c.queue = e :: rest) (order : VisitOrder SignalId) :
    ∃ b₁ c₁, b.step order = .done .continued b₁ ∧
      c₁.queue = (e :: rest).dropWhile (·.time = e.time) ∧ c₁.SwingsOn w.signal ∧
      ((b.callsFor w.task b₁ = [] ∧
          timesFor w ((e :: rest).takeWhile (·.time = e.time)) = [] ∧ Armed w c₁ b₁) ∨
        (b.callsFor w.task b₁ = [[w.task]] ∧
          timesFor w ((e :: rest).takeWhile (·.time = e.time)) = [b₁.native.now] ∧
          ∃ b₂, b₁.addWait w.signal w.edge w.task = .ok b₂ ∧ Armed w c₁ b₂)) := by
  obtain ⟨b₀, L, hstep, htends, hpending, hflushed⟩ := h.step_eq order
  obtain ⟨b₁, c₁, heq, hqueue₁, hnow₁, hticks⟩ := advance_ticks htends hswings hqueue
  obtain ⟨L₁, htends₁⟩ := hticks.tends
  have hcalls := (hflushed.trans hticks.wakes).callsFor_eq
  have hpending₁ : b₁.mux.pending.isEmpty = true := hticks.keeps.pending ▸ hpending
  have hnow : b₁.native.now = e.time := htends₁.tracked.extra.1.world.now.trans hnow₁
  rw [hqueue] at hapart
  refine ⟨b₁, c₁, hstep.trans heq, hqueue₁, hticks.swings, ?_⟩
  rw [timesFor]
  -- at one time there is at most one event on the signal
  rcases filter_takeWhile_time e.time hapart with hnone | ⟨a, hone, htime⟩
  · rw [valuesOn, hnone] at hcalls htends₁
    rw [hnone]
    exact .inl ⟨hcalls, rfl, .registered htends₁ hpending₁⟩
  · rw [valuesOn, hone] at hcalls htends₁
    rw [hone, List.filter_singleton]
    cases hhears : w.edge.condition.accepts a.value with
    | true =>
      simp only [List.map_cons, List.map_nil, Demand.told, Demand.unmet, Demand.isMet,
        Demand.hears, List.filter_singleton, hhears] at hcalls htends₁
      obtain ⟨b₂, hadded, harmed⟩ := Tends.addWait htends₁ hpending₁
      exact .inr ⟨hcalls, by simp [htime, hnow], b₂, hadded, harmed⟩
    | false =>
      simp only [List.map_cons, List.map_nil, Demand.told, Demand.unmet, Demand.isMet,
        Demand.hears, List.filter_singleton, hhears] at hcalls htends₁
      exact .inl ⟨hcalls, rfl, .registered htends₁ hpending₁⟩

/-- **A wait that is added again** wakes its task at every event that it is for. -/
theorem rearms_of_armed (orders : Nat → VisitOrder SignalId) {c : Sim}
    {b : SimBench (SchedulerRecord T)} (h : Armed w c b) (hswings : c.SwingsOn w.signal)
    (hapart : (c.queue.filter (·.signal = w.signal)).Pairwise (·.time.fs < ·.time.fs)) :
    ∃ b', Rearms w orders b (timesFor w c.queue) b' := by
  -- each step takes the events of one time off the queue
  induction hn : c.queue.length using Nat.strong_induction_on generalizing orders c b with
  | _ n ih =>
    cases hqueue : c.queue with
    | nil =>
      obtain ⟨b₀, L, hstep, htends, -, -⟩ := h.step_eq (orders 0)
      rw [advance_of_queue (htends.tracked.queue_eq.trans hqueue)] at hstep
      exact ⟨b₀, .ended hstep⟩
    | cons e rest =>
      obtain ⟨b₁, c₁, hstep, hqueue₁, hswings₁, hwoken⟩ := h.step hswings hapart hqueue (orders 0)
      have hlater : c₁.queue.Sublist c.queue := by
        rw [hqueue₁, hqueue]
        exact List.dropWhile_sublist _
      have hshorter : c₁.queue.length < n := by
        rw [hqueue₁, ← hn, hqueue]
        exact Nat.lt_succ_of_le (length_dropWhile_time e rest)
      have hgoOn : ∀ b₂, Armed w c₁ b₂ → ∃ b',
          Rearms w (fun i => orders (i + 1)) b₂ (timesFor w c₁.queue) b' := fun b₂ h₂ =>
        ih _ hshorter _ h₂ hswings₁ (hapart.sublist (hlater.filter _)) rfl
      have htimes := timesFor_append (w := w) ((e :: rest).takeWhile (·.time = e.time)) c₁.queue
      rw [hqueue₁, List.takeWhile_append_dropWhile, ← hqueue₁] at htimes
      rw [htimes]
      rcases hwoken with ⟨hcalls, hnone, h₁⟩ | ⟨hcalls, hone, b₂, hagain, h₂⟩
      · obtain ⟨b', hrest⟩ := hgoOn b₁ h₁
        rw [hnone]
        exact ⟨b', .asleep hstep hcalls hrest⟩
      · obtain ⟨b', hrest⟩ := hgoOn b₂ h₂
        have hwoke := Rearms.woken hstep (by rw [hcalls]; exact List.cons_ne_nil _ _) hagain hrest
        rw [hcalls] at hwoke
        rw [hone]
        exact ⟨b', hwoke⟩

end Bench

end EdgeWait
