/-
The stages of a run of the simulator.

A run is flushes and events, one after another.  They are told in one list, each with the state in
which its turn has come (`Stage`).  What else is to be told of a run is read off that list: which
events have been applied, which callbacks have been called, which tasks have been woken, and which
calls the simulator has had.

* `applyChange_eq` — what applying a change does, by what the signal is before it;
* `advance`, `step_eq` — a step is a flush, and then the events of the next time;
* `stepStages`, `runStages`, `runUntilStages` — the stages of a step and of runs.

Design note: the program keeps no such list.  The stages are read off the states that a run goes
through, with the same loops as those of the simulator, and this is the only place where these loops
are told a second time.
-/
import EdgeWait.Sim.Run

namespace EdgeWait

/-! ### Signals -/

namespace Sim

/-- There is such a signal. -/
def Has (s : Sim) (id : SignalId) : Prop := id.raw.toNat < s.signals.size

instance (s : Sim) (id : SignalId) : Decidable (s.Has id) := inferInstanceAs (Decidable (_ < _))

/-- The fault that comes of a signal that does not exist. -/
def missing (s : Sim) (id : SignalId) : Fault :=
  .indexOutOfBounds s.signals.size id.raw.toNat

/-- The fault is that of an event in the queue whose signal does not exist. -/
def Misses (s : Sim) (f : Fault) : Prop := ∃ e ∈ s.queue, ¬ s.Has e.signal ∧ f = s.missing e.signal

/-- All events in the queue are on signals that exist. -/
def Grounded (s : Sim) : Prop := ∀ e ∈ s.queue, s.Has e.signal

theorem Grounded.not_misses {s : Sim} (h : s.Grounded) {f : Fault} : ¬ s.Misses f :=
  fun ⟨e, he, hnone, _⟩ => hnone (h e he)

theorem signal?_eq_none_iff {s : Sim} {id : SignalId} : s.signal? id = none ↔ ¬ s.Has id := by
  rw [signal?, Array.getElem?_eq_none_iff, Has, Nat.not_lt]

theorem Has.exists_signal? {s : Sim} {id : SignalId} (h : s.Has id) :
    ∃ signal, s.signal? id = some signal := ⟨_, Array.getElem?_eq_getElem h⟩

/-- The simulator with another value of a signal, if there is such a signal. -/
def withValue (s : Sim) (id : SignalId) (value : Logic) : Sim :=
  { s with signals := s.signals.modify id.raw.toNat fun signal => { signal with value } }

theorem size_withValue (s : Sim) (id : SignalId) (value : Logic) :
    (s.withValue id value).signals.size = s.signals.size := Array.size_modify

theorem signal?_withValue (s : Sim) (id other : SignalId) (value : Logic) :
    (s.withValue id value).signal? other =
      (s.signal? other).map fun signal => if id = other then { signal with value } else signal := by
  rw [signal?, withValue, signal?, Array.getElem?_modify]
  by_cases heq : id = other
  · simp [heq]
  · have hplace : id.raw.toNat ≠ other.raw.toNat := by
      intro hc
      refine heq ?_
      cases id
      cases other
      exact congrArg SignalId.mk (UInt32.toNat_inj.mp hc)
    simp [heq, hplace]

/-- To change a signal takes the signal, and another value for it. -/
theorem change_eq (s : Sim) (id : SignalId) (value : Logic) :
    s.change id value =
      match s.signal? id with
      | none => .error (s.missing id)
      | some before =>
        if before.value = value then .ok none
        else .ok (some (before, s.withValue id value)) := by
  rw [change, signal?, missing]
  by_cases h : id.raw.toNat < s.signals.size
  · have hset : s.signals.set id.raw.toNat { s.signals[id.raw.toNat] with value } h =
        s.signals.modify id.raw.toNat fun signal => { signal with value } := by
      refine Array.ext_getElem? fun i => ?_
      rw [Array.getElem?_set, Array.getElem?_modify]
      by_cases hi : id.raw.toNat = i
      · simp [← hi, h]
      · simp [hi]
    simp only [h, Array.getElem?_eq_getElem, dif_pos, hset]
    rfl
  · rw [dif_neg h, Array.getElem?_eq_none (Nat.le_of_not_lt h)]

end Sim

open Sim

namespace Bench

variable {T : Type}

/-- The bench when the head of the queue has been taken off. -/
def popped (b : SimBench T) : SimBench T := b.onSim fun s => { s with queue := s.queue.tail }

variable [Scheduler T]

/-- **To apply a change** sets the signal and reports to its callbacks, unless the signal has the
value already. -/
theorem applyChange_eq (b : SimBench T) (signal : SignalId) (value : Logic) :
    b.applyChange signal value =
      match b.native.signal? signal with
      | none => .fault (b.native.missing signal)
      | some before =>
        if before.value = value then .done () b
        else
          let b := b.note (.changed b.native.now before.name before.value value)
          let b := b.onSim fun s => s.withValue signal value
          reportTo value (b.native.subscribers signal) b := by
  rw [applyChange, change_eq]
  cases b.native.signal? signal with
  | none => rfl
  | some before =>
    by_cases hsame : before.value = value
    · simp only [if_pos hsame]
    · simp only [if_neg hsame]
      rfl

/-- A change of a signal that does not exist is a fault. -/
theorem applyChange_missing {b : SimBench T} {signal : SignalId} (h : ¬ b.native.Has signal)
    (value : Logic) : b.applyChange signal value = .fault (b.native.missing signal) := by
  rw [applyChange_eq, signal?_eq_none_iff.mpr h]

/-- So a change that has not stopped on a fault has found its signal. -/
theorem has_of_applyChange_eq {b b' : SimBench T} {signal : SignalId} {value : Logic}
    (h : b.applyChange signal value = .done () b') : b.native.Has signal := by
  by_cases hhas : b.native.Has signal
  · exact hhas
  · rw [applyChange_missing hhas] at h
    cases h

/-! ### Steps -/

/-- Events are applied one after another, until one stops on an error. -/
theorem applyEvents_cons (e : Event) (rest : List Event) (b : SimBench T) :
    applyEvents (e :: rest) b =
      (b.popped.applyChange e.signal e.value).andThen fun _ b => applyEvents rest b := by
  rw [applyEvents, popped]
  cases (b.onSim fun s => { s with queue := s.queue.tail }).applyChange e.signal e.value with
  | fault f => rfl
  | failed error b₁ => rfl
  | done _ b₁ => rfl

theorem applyEvents_cons_eq_done {b b' : SimBench T} {e : Event} {rest : List Event}
    (h : applyEvents (e :: rest) b = .done () b') :
    ∃ b₁, b.popped.applyChange e.signal e.value = .done () b₁ ∧
      applyEvents rest b₁ = .done () b' := by
  rw [applyEvents_cons] at h
  cases hone : b.popped.applyChange e.signal e.value with
  | fault f =>
    rw [hone] at h
    cases h
  | failed error b₁ =>
    rw [hone] at h
    cases h
  | done _ b₁ =>
    rw [hone] at h
    exact ⟨b₁, rfl, h⟩

/-- A step without the flush that it begins with. -/
def advance (b : SimBench T) : Outcome SimError (SimBench T) StepResult :=
  match b.native.nextTime? with
  | none => .done .done b
  | some now =>
    match applyEvents (b.native.queue.takeWhile (·.time = now))
        (b.onSim fun s => { s with now }) with
    | .fault f => .fault f
    | .failed e b => .failed (.mux e) b
    | .done _ b => .done .continued (b.onSim fun s => { s with steps := s.steps + 1 })

theorem step_eq (b : SimBench T) (order : VisitOrder SignalId) :
    b.step order = ((b.flush order).mapError .mux).andThen fun _ b => b.advance := by
  rw [step]
  cases b.flush order with
  | fault f => rfl
  | failed e b₁ => rfl
  | done summary b₁ => rfl

theorem step_of_flush {b b₁ : SimBench T} {order : VisitOrder SignalId} {summary : FlushSummary}
    (h : b.flush order = .done summary b₁) : b.step order = b₁.advance := by
  rw [step_eq, h]
  rfl

theorem step_eq_done {b b' : SimBench T} {order : VisitOrder SignalId} {found : StepResult}
    (h : b.step order = .done found b') :
    ∃ summary b₁, b.flush order = .done summary b₁ ∧ b₁.advance = .done found b' := by
  rw [step_eq] at h
  cases hflush : b.flush order with
  | fault f =>
    rw [hflush] at h
    cases h
  | failed e b₁ =>
    rw [hflush] at h
    cases h
  | done summary b₁ =>
    rw [hflush] at h
    exact ⟨summary, b₁, rfl, h⟩

end Bench

/-! ### Stages -/

/-- An event whose turn has come, and the state in which it has. -/
structure Moment (T : Type) where
  bench : SimBench T
  event : Event

/-- What happens at one point of a run. -/
inductive Stage (T : Type) where
  /-- The pending waits are flushed. -/
  | flush (bench : SimBench T) (order : VisitOrder SignalId)
  /-- An event, which has left the queue, is applied. -/
  | event (moment : Moment T)

namespace Stage

variable {T : Type}

/-- The moment of a stage, if it is one of an event. -/
def moment? : Stage T → Option (Moment T)
  | flush _ _ => none
  | event m => some m

/-- The event of a stage. -/
def event? (stage : Stage T) : Option Event := stage.moment?.map (·.event)

end Stage

namespace Bench

variable {T : Type} [Scheduler T]

/-- The stages of events from the head of the queue. -/
def eventStages : List Event → SimBench T → List (Stage T)
  | [], _ => []
  | e :: rest, b =>
    .event ⟨b.popped, e⟩ ::
      match b.popped.applyChange e.signal e.value with
      | .done _ b => eventStages rest b
      | _ => []

/-- The stages of a step after its flush. -/
def advanceStages (b : SimBench T) : List (Stage T) :=
  match b.native.nextTime? with
  | none => []
  | some now =>
    eventStages (b.native.queue.takeWhile (·.time = now)) (b.onSim fun s => { s with now })

/-- The stages of one step. -/
def stepStages (order : VisitOrder SignalId) (b : SimBench T) : List (Stage T) :=
  .flush b order ::
    match b.flush order with
    | .done _ b => b.advanceStages
    | _ => []

/-- The stages of at most `n` steps, and of one more. -/
def runStepsStages : Nat → (Nat → VisitOrder SignalId) → SimBench T → List (Stage T)
  | 0, orders, b => b.stepStages (orders 0)
  | n + 1, orders, b =>
    b.stepStages (orders 0) ++
      match b.step (orders 0) with
      | .done .continued b => runStepsStages n (fun i => orders (i + 1)) b
      | _ => []

/-- The stages of at most `n` steps up to and including the limit, and of the flush after them. -/
def runStepsUntilStages (limit : SimTime) :
    Nat → (Nat → VisitOrder SignalId) → SimBench T → List (Stage T)
  | 0, orders, b => [.flush b (orders 0)]
  | n + 1, orders, b =>
    if b.native.nextTime?.any (·.fs ≤ limit.fs) then
      b.stepStages (orders 0) ++
        match b.step (orders 0) with
        | .done _ b => runStepsUntilStages limit n (fun i => orders (i + 1)) b
        | _ => []
    else [.flush b (orders 0)]

/-- The stages of a run until the queue is empty. -/
def runStages (orders : Nat → VisitOrder SignalId) (b : SimBench T) : List (Stage T) :=
  runStepsStages b.native.queue.length orders b

/-- The stages of a run up to a limit. -/
def runUntilStages (orders : Nat → VisitOrder SignalId) (limit : SimTime) (b : SimBench T) :
    List (Stage T) :=
  runStepsUntilStages limit b.native.queue.length orders b

end Bench

end EdgeWait
