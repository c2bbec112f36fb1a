/-
The loops of the simulator, gone through once.

A step is a flush, and then one event after another; a run is one step after another.  So what a
relation of states has to do with the stages of a run can be said for a flush and for an event
(`Traced`), and it holds of every step and every run.  For an event it can be said for its change
(`TracedByChanges`), and for that for one call (`TracedByCalls`).

* `applyChange_sameCourse` — neither the queue nor the table of signals grows or shrinks meanwhile;
* `Traced.narrowed` — so it can be taken along with every relation;
* `Traced.step`, `Traced.run`, `Traced.runUntil` — a step, and runs;
* `Traced.drives`, `Traced.drives_fault` — operations of the host that let the simulator go on;
* `TracedByCalls.reportTo`, `TracedByCalls.byChanges` — a change is one call after another;
* `TracedByChanges.traced` — and its calls are those of the stage.

Design notes: most relations need to know where a stage starts from, so a condition on states goes
along with them.  After an answer more may be known than after an error, which poisons the context:
hence the second condition, which holds where events are applied.  An event on a signal that does
not exist is a fault, whatever is traced; it is told apart from the other faults by the queue from
which the loops start (`Sim.Misses`).
-/
import EdgeWait.Proofs.Ledger
import EdgeWait.Proofs.Reach
import Mathlib.Data.List.TakeWhile

namespace EdgeWait

open Sim

/-! ### What flushes and changes leave alone -/

namespace Sim

/-- Two simulators agree in their time and their events. -/
structure SameEvents (s s' : Sim) : Prop where
  now : s'.now = s.now
  queue : s'.queue = s.queue
  nextSeq : s'.nextSeq = s.nextSeq

theorem SameEvents.refl (s : Sim) : SameEvents s s := ⟨rfl, rfl, rfl⟩

theorem SameEvents.trans {s s' s'' : Sim} (h : SameEvents s s') (h' : SameEvents s' s'') :
    SameEvents s s'' :=
  ⟨h'.now.trans h.now, h'.queue.trans h.queue, h'.nextSeq.trans h.nextSeq⟩

/-- Two simulators have the same events to come, on as many signals. -/
structure SameCourse (s s' : Sim) : Prop extends SameEvents s s' where
  size : s'.signals.size = s.signals.size

theorem SameCourse.refl (s : Sim) : SameCourse s s := ⟨.refl s, rfl⟩

theorem SameCourse.trans {s s' s'' : Sim} (h : SameCourse s s') (h' : SameCourse s' s'') :
    SameCourse s s'' := ⟨h.toSameEvents.trans h'.toSameEvents, h'.size.trans h.size⟩

/-- Neither to subscribe nor to unsubscribe has to do with events or signals. -/
theorem respected_sameCourse : Respected SameCourse where
  refl := SameCourse.refl
  trans := SameCourse.trans
  subscribe := fun _ _ _ _ => ⟨⟨rfl, rfl, rfl⟩, rfl⟩
  unsubscribe := by
    intro s s' handle h
    obtain ⟨c, -, rfl⟩ := get?_of_unsubscribe h
    exact ⟨⟨rfl, rfl, rfl⟩, rfl⟩

theorem sameCourse_withValue (s : Sim) (signal : SignalId) (value : Logic) :
    SameCourse s (s.withValue signal value) :=
  ⟨⟨rfl, rfl, rfl⟩, size_withValue s signal value⟩

/-- The events to come are the last of those that there were, on as many signals. -/
structure Narrows (s s' : Sim) : Prop where
  size : s'.signals.size = s.signals.size
  queue : s'.queue <:+ s.queue

theorem Narrows.refl (s : Sim) : Narrows s s := ⟨rfl, List.suffix_rfl⟩

theorem Narrows.trans {s s' s'' : Sim} (h : Narrows s s') (h' : Narrows s' s'') :
    Narrows s s'' := ⟨h'.size.trans h.size, h'.queue.trans h.queue⟩

theorem SameCourse.narrows {s s' : Sim} (h : SameCourse s s') : Narrows s s' :=
  ⟨h.size, h.queue ▸ List.suffix_rfl⟩

theorem Narrows.has_iff {s s' : Sim} (h : Narrows s s') (signal : SignalId) :
    s'.Has signal ↔ s.Has signal := by
  rw [Has, h.size, Has]

/-- A fault for want of a signal could be seen from the start. -/
theorem Misses.of_narrows {s s' : Sim} (h : Narrows s s') {f : Fault} (hf : s'.Misses f) :
    s.Misses f := by
  obtain ⟨e, he, hnone, rfl⟩ := hf
  refine ⟨e, h.queue.subset he, fun hhas => hnone ((h.has_iff e.signal).mpr hhas), ?_⟩
  rw [missing, h.size, missing]

theorem Grounded.of_narrows {s s' : Sim} (h : Narrows s s') (hs : s.Grounded) : s'.Grounded :=
  fun e he => (h.has_iff e.signal).mpr (hs e (h.queue.subset he))

/-- The events at the head of a queue that are taken for a time are of that time. -/
theorem time_of_mem_takeWhile {now : SimTime} {events : List Event} :
    ∀ e ∈ events.takeWhile (·.time = now), e.time = now := by
  intro e he
  simpa using List.mem_takeWhile_imp he

end Sim

namespace Bench

variable {T : Type} [Scheduler T]

/-- **A report** does nothing to the simulator but to be counted, and to end subscriptions. -/
theorem reportTo_respected {R : Sim → Sim → Prop} (hR : RespectedByEnds R)
    (hcount : ∀ s, R s { s with delivered := s.delivered + 1 }) (value : Logic)
    (callbacks : List (CallbackHandle × Callback)) :
    ∀ b : SimBench T, (reportTo value callbacks b).Upholds Fault.Any fun b' =>
      R b.native b'.native := by
  induction callbacks with
  | nil => exact fun b => hR.refl _
  | cons called rest ih =>
    intro b
    rw [reportTo]
    split
    · have hcounted := hcount b.native
      have hdeliver := deliver_respected hR
        (b.onSim fun s => { s with delivered := s.delivered + 1 }) called.2.key value
      dsimp only
      generalize (b.onSim fun s => { s with delivered := s.delivered + 1 }).deliver called.2.key
        value = o at hdeliver
      cases o with
      | fault f => exact hdeliver
      | failed e b₁ => exact hR.trans hcounted hdeliver
      | done _ b₁ => exact (ih b₁).imp fun b' hrest => hR.trans (hR.trans hcounted hdeliver) hrest
    · exact ih b

/-- A change does nothing to the simulator but to set the signal and to report it. -/
theorem applyChange_respected {R : Sim → Sim → Prop} (hR : RespectedByEnds R)
    (hset : ∀ s signal value, R s (s.withValue signal value))
    (hcount : ∀ s, R s { s with delivered := s.delivered + 1 }) (b : SimBench T)
    (signal : SignalId) (value : Logic) :
    (b.applyChange signal value).Upholds Fault.Any fun b' => R b.native b'.native := by
  rw [applyChange_eq]
  cases b.native.signal? signal with
  | none => trivial
  | some before =>
    dsimp only
    split
    · exact hR.refl _
    · exact (reportTo_respected hR hcount value _ _).imp fun b' hreported =>
        hR.trans (hset b.native signal value) hreported

theorem applyChange_sameCourse (b : SimBench T) (signal : SignalId) (value : Logic) :
    (b.applyChange signal value).Upholds Fault.Any fun b' => SameCourse b.native b'.native :=
  applyChange_respected respected_sameCourse.toRespectedByEnds sameCourse_withValue
    (fun _ => ⟨⟨rfl, rfl, rfl⟩, rfl⟩) b signal value

omit [Scheduler T] in
theorem flush_sameCourse (b : SimBench T) (order : VisitOrder SignalId) :
    (b.flush order).Upholds Fault.Any fun b' => SameCourse b.native b'.native :=
  (flush_respected respected_sameCourse.toRespectedByStarts b order).imp fun _ h => h.native

omit [Scheduler T] in
theorem sameCourse_of_flush {b b₁ : SimBench T} {order : VisitOrder SignalId}
    {summary : FlushSummary} (h : b.flush order = .done summary b₁) :
    SameCourse b.native b₁.native := by
  have hflush := flush_sameCourse b order
  rw [h] at hflush
  exact hflush

omit [Scheduler T] in
theorem narrows_popped (b : SimBench T) : Narrows b.native b.popped.native :=
  ⟨rfl, List.tail_suffix _⟩

/-! ### Relations that stages lead to -/

/-- What is told of by `items` has led from `b` to an outcome: to an answer and a state with `Q`, to
an error and one with `P`, or to one of the faults `F`. -/
def Leads {ι ε α : Type} (F : Fault → Prop) (P Q : SimBench T → Prop)
    (R : SimBench T → List ι → SimBench T → Prop) (b : SimBench T) (items : List ι) :
    Outcome ε (SimBench T) α → Prop :=
  Outcome.Settles F (fun b' => P b' ∧ R b items b') fun b' => Q b' ∧ R b items b'

/-- Flushes of states with `P`, and events of states with `Q`, lead to states that are related by
`R`, and can end in the faults `F` only. -/
structure Traced (F : Fault → Prop) (P Q : SimBench T → Prop)
    (R : SimBench T → List (Stage T) → SimBench T → Prop) : Prop where
  weaken : ∀ {b}, Q b → P b
  refl : ∀ {b}, Q b → R b [] b
  trans : ∀ {b b' b'' stages stages'},
    R b stages b' → R b' stages' b'' → R b (stages ++ stages') b''
  flush : ∀ {b}, P b → ∀ order, Leads F P Q R b [.flush b order] (b.flush order)
  /-- The time moves on to that of the next event. -/
  moved : ∀ {b now}, Q b → b.native.nextTime? = some now →
    Q (b.onSim fun s => { s with now }) ∧ R b [] (b.onSim fun s => { s with now })
  event : ∀ {b e rest}, Q b → b.native.queue = e :: rest → e.time = b.native.now →
    b.native.Has e.signal →
    Leads F P Q R b [.event ⟨b.popped, e⟩] (b.popped.applyChange e.signal e.value)
  counted : ∀ {b}, Q b →
    Q (b.onSim fun s => { s with steps := s.steps + 1 }) ∧
      R b [] (b.onSim fun s => { s with steps := s.steps + 1 })
  finished : ∀ {b}, Q b → ∀ now steps delivered,
    Q (b.note (.finished now steps delivered)) ∧ R b [] (b.note (.finished now steps delivered))

/-- One of the faults `F`, or that of an event whose signal does not exist. -/
def OrMisses (F : Fault → Prop) (b : SimBench T) (f : Fault) : Prop := F f ∨ b.native.Misses f

variable {F : Fault → Prop} {P Q : SimBench T → Prop}

section Leads

variable {ι ε α β : Type} {R : SimBench T → List ι → SimBench T → Prop}

omit [Scheduler T] in
theorem leads_of_upholds {b : SimBench T} {items : List ι} {o : Outcome ε (SimBench T) α}
    (h : o.Upholds F fun b' => P b' ∧ R b items b') : Leads F P P R b items o :=
  h.settles

omit [Scheduler T] in
theorem Leads.faults {F' : Fault → Prop} {b : SimBench T} {items : List ι}
    {o : Outcome ε (SimBench T) α} (h : Leads F P Q R b items o) (hF : ∀ f, F f → F' f) :
    Leads F' P Q R b items o := by
  cases o with
  | fault f => exact hF f h
  | failed e b' => exact h
  | done a b' => exact h

omit [Scheduler T] in
theorem Leads.upholds {b : SimBench T} {items : List ι} {o : Outcome ε (SimBench T) α}
    (h : Leads F P Q R b items o) : o.Upholds F fun b' => R b items b' := by
  cases o with
  | fault f => exact h
  | failed e b' => exact h.2
  | done a b' => exact h.2

omit [Scheduler T] in
theorem Leads.imp {ι' : Type} {R' : SimBench T → List ι' → SimBench T → Prop} {b : SimBench T}
    {items : List ι} {items' : List ι'} {o : Outcome ε (SimBench T) α}
    (h : Leads F P Q R b items o) (hR : ∀ b', R b items b' → R' b items' b') :
    Leads F P Q R' b items' o :=
  Outcome.Settles.imp h (fun b' hb => ⟨hb.1, hR b' hb.2⟩) fun b' hb => ⟨hb.1, hR b' hb.2⟩

omit [Scheduler T] in
/-- What follows something that is related is related. -/
theorem Leads.after {b b₁ : SimBench T} {items items' : List ι} {o : Outcome ε (SimBench T) α}
    (h : Leads F P Q R b₁ items' o)
    (htrans : ∀ {b b' b'' items items'}, R b items b' → R b' items' b'' → R b (items ++ items') b'')
    (hfirst : R b items b₁) : Leads F P Q R b (items ++ items') o :=
  Outcome.Settles.imp h (fun _ hb => ⟨hb.1, htrans hfirst hb.2⟩)
    fun _ hb => ⟨hb.1, htrans hfirst hb.2⟩

end Leads

variable {R : SimBench T → List (Stage T) → SimBench T → Prop}

namespace Traced

/-- Whatever is traced, the events to come are among those that there were. -/
theorem narrowed (h : Traced F P Q R) :
    Traced F P Q fun b stages b' => R b stages b' ∧ Narrows b.native b'.native where
  weaken := h.weaken
  refl := fun hb => ⟨h.refl hb, .refl _⟩
  trans := fun h₁ h₂ => ⟨h.trans h₁.1 h₂.1, h₁.2.trans h₂.2⟩
  flush := by
    intro b hb order
    have hflush := h.flush hb order
    have hsame := flush_sameCourse b order
    generalize b.flush order = o at hflush hsame
    cases o with
    | fault f => exact hflush
    | failed e b₁ => exact ⟨hflush.1, hflush.2, hsame.narrows⟩
    | done summary b₁ => exact ⟨hflush.1, hflush.2, hsame.narrows⟩
  moved := fun hb hnext => ⟨(h.moved hb hnext).1, (h.moved hb hnext).2, rfl, List.suffix_rfl⟩
  event := by
    intro b e rest hb hqueue htime hhas
    have hevent := h.event hb hqueue htime hhas
    have hsame := applyChange_sameCourse b.popped e.signal e.value
    generalize b.popped.applyChange e.signal e.value = o at hevent hsame
    have hpopped := narrows_popped b
    cases o with
    | fault f => exact hevent
    | failed e b₁ => exact ⟨hevent.1, hevent.2, hpopped.trans hsame.narrows⟩
    | done _ b₁ => exact ⟨hevent.1, hevent.2, hpopped.trans hsame.narrows⟩
  counted := fun hb => ⟨(h.counted hb).1, (h.counted hb).2, rfl, List.suffix_rfl⟩
  finished := fun hb now steps delivered =>
    ⟨(h.finished hb now steps delivered).1, (h.finished hb now steps delivered).2, .refl _⟩

section Narrowing

variable (h : Traced F P Q R) (hR : ∀ {b stages b'}, R b stages b' → Narrows b.native b'.native)

include h hR

/-- What follows can miss only what could be missed before. -/
private theorem after_narrowing {ε α : Type} {b b₁ : SimBench T} {stages stages' : List (Stage T)}
    {o : Outcome ε (SimBench T) α} (hrest : Leads (OrMisses F b₁) P Q R b₁ stages' o)
    (hfirst : R b stages b₁) : Leads (OrMisses F b) P Q R b (stages ++ stages') o :=
  (hrest.faults fun _ hf => hf.imp_right (Misses.of_narrows (hR hfirst))).after h.trans hfirst

omit hR in
theorem then_counted {b b₁ : SimBench T} {stages : List (Stage T)} (hb₁ : Q b₁)
    (hfirst : R b stages b₁) : Q (b₁.onSim fun s => { s with steps := s.steps + 1 }) ∧
      R b stages (b₁.onSim fun s => { s with steps := s.steps + 1 }) := by
  obtain ⟨hcounted, hlast⟩ := h.counted hb₁
  have hboth := h.trans hfirst hlast
  rw [List.append_nil] at hboth
  exact ⟨hcounted, hboth⟩

/-- **The events** at the head of the queue are applied in turn, until one stops on an error. -/
private theorem applyEvents_of_narrowing (events : List Event) :
    ∀ (b : SimBench T) (later : List Event), Q b → b.native.queue = events ++ later →
      (∀ e ∈ events, e.time = b.native.now) →
      Leads (OrMisses F b) P Q R b (eventStages events b) (Bench.applyEvents events b) := by
  induction events with
  | nil => exact fun b _ hb _ _ => ⟨hb, h.refl hb⟩
  | cons e rest ih =>
    intro b later hb hqueue htimes
    rw [applyEvents_cons, eventStages]
    by_cases hhas : b.native.Has e.signal
    · have hevent := h.event hb hqueue (htimes e List.mem_cons_self) hhas
      have hsame := applyChange_sameCourse b.popped e.signal e.value
      generalize b.popped.applyChange e.signal e.value = o at hevent hsame
      cases o with
      | fault f => exact .inl hevent
      | failed error b₁ => exact hevent
      | done _ b₁ =>
        refine h.after_narrowing hR (ih b₁ later hevent.1 ?_ fun a ha => ?_) hevent.2
        · rw [hsame.queue]
          show b.native.queue.tail = _
          rw [hqueue]
          rfl
        · rw [hsame.now]
          exact htimes a (List.mem_cons_of_mem e ha)
    · -- there is no such signal, and that can be told from the queue
      rw [applyChange_missing (b := b.popped) hhas]
      exact .inr ⟨e, by rw [hqueue]; exact List.mem_cons_self, hhas, rfl⟩

private theorem advance_of_narrowing {b : SimBench T} (hb : Q b) :
    Leads (OrMisses F b) P Q R b b.advanceStages b.advance := by
  rw [advance, advanceStages]
  cases hnext : b.native.nextTime? with
  | none => exact ⟨hb, h.refl hb⟩
  | some now =>
    dsimp only
    -- between the flush and the events only the time is set
    obtain ⟨hmoved, hstart⟩ := h.moved hb hnext
    set b₁ := b.onSim fun s => { s with now } with hb₁
    have hevents := h.after_narrowing hR (h.applyEvents_of_narrowing hR
      (b.native.queue.takeWhile (·.time = now)) b₁ (b.native.queue.dropWhile (·.time = now))
      hmoved List.takeWhile_append_dropWhile.symm time_of_mem_takeWhile) hstart
    rw [List.nil_append] at hevents
    generalize Bench.applyEvents (b.native.queue.takeWhile (·.time = now)) b₁ = o at hevents
    cases o with
    | fault f => exact hevents
    | failed e b₂ => exact hevents
    | done _ b₂ => exact h.then_counted hevents.1 hevents.2

private theorem step_of_narrowing {b : SimBench T} (hb : P b) (order : VisitOrder SignalId) :
    Leads (OrMisses F b) P Q R b (b.stepStages order) (b.step order) := by
  have hflush := h.flush hb order
  rw [step_eq, stepStages]
  generalize b.flush order = o at hflush
  cases o with
  | fault f => exact .inl hflush
  | failed e b₁ => exact hflush
  | done summary b₁ =>
    exact h.after_narrowing hR (h.advance_of_narrowing hR hflush.1) hflush.2

private theorem runSteps_of_narrowing (n : Nat) :
    ∀ (orders : Nat → VisitOrder SignalId) (b : SimBench T), P b →
      Leads (OrMisses F b) P Q R b (runStepsStages n orders b) (Bench.runSteps n orders b) := by
  induction n with
  | zero =>
    intro orders b hb
    have hstep := h.step_of_narrowing hR hb (orders 0)
    rw [Bench.runSteps, runStepsStages]
    generalize b.step (orders 0) = o at hstep
    cases o with
    | fault f => exact hstep
    | failed e b₁ => exact hstep
    | done found b₁ => exact hstep
  | succ n ih =>
    intro orders b hb
    have hstep := h.step_of_narrowing hR hb (orders 0)
    rw [Bench.runSteps, runStepsStages]
    generalize b.step (orders 0) = o at hstep
    cases o with
    | fault f => exact hstep
    | failed e b₁ =>
      rw [List.append_nil]
      exact hstep
    | done found b₁ =>
      cases found with
      | done =>
        rw [List.append_nil]
        exact hstep
      | continued => exact h.after_narrowing hR (ih _ b₁ (h.weaken hstep.1)) hstep.2

private theorem runStepsUntil_of_narrowing (limit : SimTime) (n : Nat) :
    ∀ (orders : Nat → VisitOrder SignalId) (b : SimBench T), P b →
      Leads (OrMisses F b) P Q R b (runStepsUntilStages limit n orders b)
        (Bench.runStepsUntil limit n orders b) := by
  have hlast : ∀ (order : VisitOrder SignalId) (b : SimBench T), P b →
      Leads (OrMisses F b) P Q R b [.flush b order]
        (((b.flush order).mapError SimError.mux).andThen fun _ b => .done () b) := by
    intro order b hb
    have hflush := h.flush hb order
    generalize b.flush order = o at hflush
    cases o with
    | fault f => exact .inl hflush
    | failed e b₁ => exact hflush
    | done summary b₁ => exact hflush
  induction n with
  | zero => exact fun orders b hb => hlast (orders 0) b hb
  | succ n ih =>
    intro orders b hb
    rw [Bench.runStepsUntil, runStepsUntilStages]
    by_cases hdue : b.native.nextTime?.any (·.fs ≤ limit.fs) = true
    · rw [if_pos hdue, if_pos hdue]
      have hstep := h.step_of_narrowing hR hb (orders 0)
      generalize b.step (orders 0) = o at hstep
      cases o with
      | fault f => exact hstep
      | failed e b₁ =>
        rw [List.append_nil]
        exact hstep
      | done found b₁ => exact h.after_narrowing hR (ih _ b₁ (h.weaken hstep.1)) hstep.2
    · rw [if_neg hdue, if_neg hdue]
      exact hlast (orders 0) b hb

end Narrowing

/-- **One step** is a flush, and then the events of the next time. -/
theorem step (h : Traced F P Q R) {b : SimBench T} (hb : P b) (order : VisitOrder SignalId) :
    Leads (OrMisses F b) P Q R b (b.stepStages order) (b.step order) :=
  (h.narrowed.step_of_narrowing And.right hb order).imp fun _ => And.left

theorem runSteps (h : Traced F P Q R) {b : SimBench T} (hb : P b) (n : Nat)
    (orders : Nat → VisitOrder SignalId) :
    Leads (OrMisses F b) P Q R b (runStepsStages n orders b) (Bench.runSteps n orders b) :=
  (h.narrowed.runSteps_of_narrowing And.right n orders b hb).imp fun _ => And.left

theorem runStepsUntil (h : Traced F P Q R) {b : SimBench T} (hb : P b) (limit : SimTime) (n : Nat)
    (orders : Nat → VisitOrder SignalId) :
    Leads (OrMisses F b) P Q R b (runStepsUntilStages limit n orders b)
      (Bench.runStepsUntil limit n orders b) :=
  (h.narrowed.runStepsUntil_of_narrowing And.right limit n orders b hb).imp fun _ => And.left

/-- **A run** is one step after another. -/
theorem run (h : Traced F P Q R) {b : SimBench T} (hb : P b)
    (orders : Nat → VisitOrder SignalId) :
    Leads (OrMisses F b) P Q R b (b.stages (.run orders)) (b.run orders) := by
  have hsteps := h.runSteps hb b.native.queue.length orders
  rw [stages, runStages, Bench.run]
  generalize Bench.runSteps b.native.queue.length orders b = o at hsteps
  cases o with
  | fault f => exact hsteps
  | failed e b₁ => exact hsteps
  | done a b₁ =>
    obtain ⟨hnoted, hlast⟩ := h.finished hsteps.1 b₁.native.now b₁.native.steps b₁.native.delivered
    have hboth := h.trans hsteps.2 hlast
    rw [List.append_nil] at hboth
    exact ⟨hnoted, hboth⟩

theorem runUntil (h : Traced F P Q R) {b : SimBench T} (hb : P b)
    (orders : Nat → VisitOrder SignalId) (limit : SimTime) :
    Leads (OrMisses F b) P Q R b (b.stages (.runUntil orders limit)) (b.runUntil orders limit) := by
  have hsteps := h.runStepsUntil hb limit b.native.queue.length orders
  rw [stages, runUntilStages, Bench.runUntil]
  generalize Bench.runStepsUntil limit b.native.queue.length orders b = o at hsteps
  cases o with
  | fault f => exact hsteps
  | failed e b₁ => exact hsteps
  | done a b₁ => exact hsteps

/-- A step or a run of the host is one of the simulator. -/
theorem host (h : Traced F P Q R) {b : SimBench T} (hb : P b) {op : HostOp}
    (hop : op.drives = true) : ∃ (ε α : Type) (o : Outcome ε (SimBench T) α),
      b.host op = o.final ∧ Leads (OrMisses F b) P Q R b (b.stages op) o := by
  cases op with
  | step order => exact ⟨_, _, _, rfl, h.step hb order⟩
  | run orders => exact ⟨_, _, _, rfl, h.run hb orders⟩
  | runUntil orders limit => exact ⟨_, _, _, rfl, h.runUntil hb orders limit⟩
  | _ => cases hop

/-- **Steps and runs of the host** are related as their stages are. -/
theorem drives (h : Traced F P Q R) {b b' : SimBench T} (hb : P b) {op : HostOp}
    (hop : op.drives = true) (hhost : b.host op = .ok b') : P b' ∧ R b (b.stages op) b' := by
  obtain ⟨ε, α, o, heq, hleads⟩ := h.host hb hop
  have hupholds := Outcome.Settles.upholds hleads fun _ hb => ⟨h.weaken hb.1, hb.2⟩
  exact hupholds.final (heq.symm.trans hhost)

theorem drives_fault (h : Traced F P Q R) {b : SimBench T} (hb : P b) {op : HostOp}
    (hop : op.drives = true) {f : Fault} (hhost : b.host op = .error f) : OrMisses F b f := by
  obtain ⟨ε, α, o, heq, hleads⟩ := h.host hb hop
  obtain rfl := Outcome.fault_of_final (heq.symm.trans hhost)
  exact hleads

end Traced

/-! ### Relations that calls lead to -/

/-- Flushes of states with `P`, and changes of states with `Q`, lead to states that are related by
`R`, as far as callbacks are called meanwhile, and can end in the faults `F` only. -/
structure TracedByChanges (F : Fault → Prop) (P Q : SimBench T → Prop)
    (R : SimBench T → List (Call T) → SimBench T → Prop) : Prop where
  weaken : ∀ {b}, Q b → P b
  trans : ∀ {b b' b'' calls calls'}, R b calls b' → R b' calls' b'' → R b (calls ++ calls') b''
  aside : ∀ {b b'}, Q b → Aside b b' → Q b' ∧ R b [] b'
  flush : ∀ {b}, P b → ∀ order, Leads F P Q R b [] (b.flush order)
  change : ∀ {b signal}, Q b → b.native.Has signal → ∀ value,
    Leads F P Q R b (b.changeCalls signal value) (b.applyChange signal value)

/-- The same for flushes and calls. -/
structure TracedByCalls (F : Fault → Prop) (P Q : SimBench T → Prop)
    (R : SimBench T → List (Call T) → SimBench T → Prop) : Prop where
  weaken : ∀ {b}, Q b → P b
  trans : ∀ {b b' b'' calls calls'}, R b calls b' → R b' calls' b'' → R b (calls ++ calls') b''
  aside : ∀ {b b'}, Q b → Aside b b' → Q b' ∧ R b [] b'
  flush : ∀ {b}, P b → ∀ order, Leads F P Q R b [] (b.flush order)
  /-- A callback that has been removed is passed over. -/
  passed : ∀ {b handle}, Q b → b.native.isLive handle = false →
    ∀ callback value, R b [⟨b, handle, callback, value⟩] b
  heard : ∀ {b handle}, Q b → b.native.isLive handle = true → ∀ callback value,
    Leads F P Q R b [⟨b, handle, callback, value⟩]
      ((b.onSim fun s => { s with delivered := s.delivered + 1 }).deliver callback.key value)

variable {C : SimBench T → List (Call T) → SimBench T → Prop}

/-- Callbacks are called in turn, until one stops on an error. -/
theorem TracedByCalls.reportTo (h : TracedByCalls F P Q C) (value : Logic)
    (callbacks : List (CallbackHandle × Callback)) :
    ∀ b : SimBench T, Q b →
      Leads F P Q C b (reportCalls value callbacks b) (Bench.reportTo value callbacks b) := by
  induction callbacks with
  | nil => exact fun b hb => h.aside hb (.refl b)
  | cons called rest ih =>
    obtain ⟨handle, callback⟩ := called
    intro b hb
    rw [Bench.reportTo, reportCalls]
    cases hlive : b.native.isLive handle with
    | false =>
      rw [if_neg Bool.false_ne_true, if_neg Bool.false_ne_true]
      exact (ih b hb).after h.trans (h.passed hb hlive callback value)
    | true =>
      have hone := h.heard hb hlive callback value
      rw [if_pos rfl, if_pos rfl]
      dsimp only
      generalize (b.onSim fun s => { s with delivered := s.delivered + 1 }).deliver callback.key
        value = o at hone
      cases o with
      | fault f => exact hone
      | failed e b₁ => exact hone
      | done _ b₁ => exact (ih b₁ hone.1).after h.trans hone.2

/-- **A change** calls the callbacks of the signal. -/
theorem TracedByCalls.applyChange (h : TracedByCalls F P Q C) {b : SimBench T} (hb : Q b)
    {signal : SignalId} (hhas : b.native.Has signal) (value : Logic) :
    Leads F P Q C b (b.changeCalls signal value) (b.applyChange signal value) := by
  obtain ⟨before, hbefore⟩ := hhas.exists_signal?
  rw [applyChange_eq, changeCalls, hbefore]
  dsimp only
  by_cases hsame : before.value = value
  · rw [if_pos hsame, if_pos hsame]
    exact h.aside hb (.refl b)
  · rw [if_neg hsame, if_neg hsame]
    set b₁ := (b.note (.changed b.native.now before.name before.value value)).onSim fun s =>
      s.withValue signal value with hb₁
    have haside : Aside b b₁ :=
      (aside_note (by simp)).trans (aside_onSim (untouched_withValue _ signal value))
    obtain ⟨hset, hbeside⟩ := h.aside hb haside
    exact (h.reportTo value _ _ hset).after h.trans hbeside

theorem TracedByCalls.byChanges (h : TracedByCalls F P Q C) : TracedByChanges F P Q C :=
  ⟨h.weaken, h.trans, h.aside, h.flush, fun hb hhas value => h.applyChange hb hhas value⟩

/-- **An event** calls the callbacks that its change calls. -/
theorem TracedByChanges.traced (h : TracedByChanges F P Q C) :
    Traced F P Q fun b stages b' => C b (stages.flatMap (·.calls)) b' where
  weaken := h.weaken
  refl := fun hb => (h.aside hb (.refl _)).2
  trans := by
    intro b b' b'' stages stages' h₁ h₂
    rw [List.flatMap_append]
    exact h.trans h₁ h₂
  flush := fun hb order => (h.flush hb order).imp fun _ hled => hled
  moved := fun hb _ => h.aside hb (aside_onSim ⟨⟨rfl, rfl, rfl, rfl⟩, rfl⟩)
  event := by
    intro b e rest hb _ _ hhas
    have haside : Aside b b.popped := aside_onSim ⟨⟨rfl, rfl, rfl, rfl⟩, rfl⟩
    obtain ⟨hpopped, hbeside⟩ := h.aside hb haside
    have hchange := (h.change (b := b.popped) hpopped hhas e.value).after h.trans hbeside
    exact hchange.imp fun _ hled => by simpa [Stage.calls, Moment.calls] using hled
  counted := fun hb => h.aside hb (aside_onSim ⟨⟨rfl, rfl, rfl, rfl⟩, rfl⟩)
  finished := fun hb _ _ _ => h.aside hb (aside_note (by simp))

end Bench

end EdgeWait
