/-
Where a run is stopped and taken up again does not matter.

* `idle_of_flush`, `idle_of_step` — after a flush or a step that has succeeded there is nothing to
  flush (`Bench.Idle`), so the flush that follows does nothing at all;
* `queue_of_advance` — a step takes every event of its time off the queue, so the steps that a run
  is allowed are always enough;
* `stopping_points` — to run up to one limit and then up to a later one is to run up to the later
  one, and to run without a limit is to run up to the end of time.

Design notes: nothing is assumed of the state.  The context may be poisoned, and a run may stop on
an error.  The calls of the native layer are no part of the state, so they are read off the stages of
the run; each operation of the context is looked at on a native layer that keeps a record.
Only the first flush of a run can find something to do, so only the first of the orders matters.
-/
import EdgeWait.Proofs.Causality
import EdgeWait.Proofs.Coherence

namespace EdgeWait

open Sim

/-! ### Nothing to flush -/

/-- Whoever accepts all lists leaves the waits without them. -/
theorem PendingWaits.drainLists_done {σ ε S : Type} [DecidableEq σ]
    {accept : σ → Edge → List TaskId → S → Outcome ε S Unit} (lists : List (σ × Edge)) :
    ∀ (p p' : PendingWaits σ) (s s' : S), drainLists accept lists p s = .done () (p', s') →
      p' = lists.foldl (fun p v => p.emptyList v.1 v.2) p := by
  induction lists with
  | nil =>
    intro p p' s s' h
    obtain ⟨-, h⟩ := Outcome.done.inj h
    exact (Prod.mk.inj h).1.symm
  | cons v rest ih =>
    intro p p' s s' h
    rw [drainLists] at h
    by_cases hnone : p.waiting v.1 v.2 = []
    · rw [if_pos hnone] at h
      rw [List.foldl_cons, emptyList_of_waiting_eq_nil hnone]
      exact ih p p' s s' h
    · rw [if_neg hnone] at h
      cases hone : accept v.1 v.2 (p.waiting v.1 v.2) s with
      | fault f =>
        rw [hone] at h
        cases h
      | failed e s₁ =>
        rw [hone] at h
        cases h
      | done _ s₁ =>
        rw [hone] at h
        exact ih _ p' s₁ s' h

namespace Bench

section Flushing

variable {N T σ η : Type}

/-- The context is in order, and no wait is pending. -/
structure Idle (b : Bench N T σ η) : Prop where
  live : b.mux.isPoisoned = false
  pending : b.mux.pending.isEmpty = true

/-- What makes a context unusable is the same. -/
structure SameStanding (b b' : Bench N T σ η) : Prop where
  failed : b'.mux.failed = b.mux.failed
  bridge : b'.mux.bridge = b.mux.bridge

theorem SameStanding.isPoisoned_eq {b b' : Bench N T σ η} (h : SameStanding b b') :
    b'.mux.isPoisoned = b.mux.isPoisoned := by
  rw [Mux.isPoisoned, h.failed, h.bridge, Mux.isPoisoned]

variable [NativeLayer N σ η] [LogText σ] [LogText η]

/-- A registration that cannot be made does not by itself make the context unusable. -/
theorem sameStanding_holdsOverRegister :
    HoldsOverRegister (SameStanding (N := N) (T := T) (σ := σ) (η := η)) where
  refl := fun _ => ⟨rfl, rfl⟩
  trans := fun h h' => ⟨h'.failed.trans h.failed, h'.bridge.trans h.bridge⟩
  register := by
    intro b signal edge tasks mode
    rw [register]
    cases b.mux.subscriptions.subscribe b.native signal edge tasks mode with
    | error f => trivial
    | ok answer =>
      cases answer with
      | none => exact ⟨rfl, rfl⟩
      | some o => exact ⟨rfl, rfl⟩

variable [DecidableEq σ]

/-- A flush of an idle context does nothing, and does not count. -/
theorem Idle.flush {b : Bench N T σ η} (h : Idle b) (order : VisitOrder σ) :
    b.flush order = .done {} b := by
  rw [Bench.flush, h.live, h.pending]
  rfl

/-- **After a flush** that has succeeded the context is idle. -/
theorem idle_of_flush {b b' : Bench N T σ η} {order : VisitOrder σ} {summary : FlushSummary}
    (h : b.flush order = .done summary b') : Idle b' := by
  rw [flush] at h
  cases hlive : b.mux.isPoisoned with
  | true =>
    rw [hlive] at h
    cases h
  | false =>
    rw [hlive, if_neg Bool.false_ne_true] at h
    by_cases hempty : b.mux.pending.isEmpty = true
    · rw [if_pos hempty] at h
      obtain ⟨-, rfl⟩ := Outcome.done.inj h
      exact ⟨hlive, hempty⟩
    · rw [if_neg hempty, PendingWaits.drainWith] at h
      -- to register leaves the standing of a context as it is
      have hstanding := sameStanding_holdsOverRegister.drainLists (b.mux.pending.visits order)
        b.mux.pending (b, {})
      cases hdrain : PendingWaits.drainLists registerList (b.mux.pending.visits order)
          b.mux.pending (b, {}) with
      | fault f =>
        rw [hdrain] at h
        cases h
      | failed e s =>
        rw [hdrain] at h
        cases h
      | done _ s =>
        rw [hdrain] at h hstanding
        obtain ⟨p, b₁, summary₁⟩ := s
        have hp := PendingWaits.drainLists_done _ _ _ _ _ hdrain
        rw [PendingWaits.foldl_emptyList_visits] at hp
        obtain ⟨-, rfl⟩ := Outcome.done.inj h
        refine ⟨hstanding.isPoisoned_eq.trans hlive, ?_⟩
        show p.isEmpty = true
        rw [hp]
        exact PendingWaits.isEmpty_clear _

omit [LogText σ] [LogText η] [DecidableEq σ] in
/-- A report that leads to no error leaves an idle context idle. -/
theorem Idle.deliver [Scheduler T] {b : Bench N T σ η} (h : Idle b) (key : RegistrationKey)
    (value : Logic) : (b.deliver key value).Settles Fault.Any (fun _ => True) Idle := by
  cases hget : b.mux.registration? key with
  | none =>
    rw [deliver_of_gone h.live hget]
    exact ⟨h.live, h.pending⟩
  | some r =>
    cases hacc : r.accepts (b.mux.observe value) with
    | false =>
      rw [deliver_of_differs h.live hget hacc]
      exact ⟨h.live, h.pending⟩
    | true =>
      rw [deliver_of_accepts h.live hget hacc]
      -- the hand-over is the same whether the registration ends before it or stays
      have hdispatch : ∀ b₁ : Bench N T σ η, Idle b₁ →
          ((b₁.dispatch r.tasks).andThen fun _ b =>
            Outcome.done (Delivery.fired r.tasks.length) b).Settles Fault.Any
              (fun _ => True) Idle := by
        intro b₁ hb₁
        obtain ⟨hfailed, hup⟩ := (isPoisoned_eq_false_iff b₁.mux).mp hb₁.live
        have hresult := dispatch_spec hup r.tasks
        generalize b₁.dispatch r.tasks = o at hresult
        cases hresult with
        | failed b₂ => trivial
        | done b₂ hsame _ hbridge =>
          refine ⟨(isPoisoned_eq_false_iff b₂.mux).mpr ⟨?_, ?_⟩, ?_⟩
          · rw [hsame.failed, hfailed]
          · rw [hbridge]
            exact hup
          · rw [hsame.pending, hb₁.pending]
      by_cases hmode : r.mode = .oneShot
      · rw [if_pos hmode]
        cases hdown : (b.count fun c => { c with
            notifications := c.notifications + 1 }).tearDown key with
        | error f => trivial
        | ok answer =>
          have hsame := tearDown_same hdown
          refine hdispatch _ ⟨?_, ?_⟩
          · show answer.2.mux.isPoisoned = false
            rw [hsame]
            exact h.live
          · show answer.2.mux.pending.isEmpty = true
            rw [hsame]
            exact h.pending
      · rw [if_neg hmode]
        exact hdispatch _ ⟨h.live, h.pending⟩

end Flushing

variable {T : Type} [Scheduler T]

/-- An error may leave anything, and an answer leaves an idle context. -/
theorem traced_idle : Traced (T := T) Fault.Any (fun _ => True) Idle fun _ _ _ => True := by
  have hcalls : TracedByCalls (T := T) Fault.Any (fun _ => True) Idle fun _ _ _ => True := by
    refine ⟨fun _ => trivial, fun _ _ => trivial, ?_, ?_, fun _ _ _ _ => trivial, ?_⟩
    · intro b b' h haside
      refine ⟨⟨?_, ?_⟩, trivial⟩
      · rw [haside.mux]
        exact h.live
      · rw [haside.mux]
        exact h.pending
    · intro b _ order
      cases hflush : b.flush order with
      | fault f => trivial
      | failed e b₁ => exact ⟨trivial, trivial⟩
      | done summary b₁ => exact ⟨idle_of_flush hflush, trivial⟩
    · intro b handle h _ callback value
      have hmux : Idle (b.onSim fun s => { s with delivered := s.delivered + 1 }) :=
        ⟨h.live, h.pending⟩
      exact (hmux.deliver callback.key value).imp (fun _ _ => ⟨trivial, trivial⟩)
        fun _ hb => ⟨hb, trivial⟩
  exact hcalls.byChanges.traced

/-- **After a step** that has succeeded the context is idle. -/
theorem idle_of_step {b b' : SimBench T} {order : VisitOrder SignalId} {found : StepResult}
    (h : b.step order = .done found b') : Idle b' := by
  have hstep := traced_idle.step (b := b) trivial order
  rw [h] at hstep
  exact hstep.1

/-! ### Steps and the queue -/

/-- Events that have been applied without an error have left the queue, and no others have. -/
theorem queue_of_applyEvents (later events : List Event) :
    ∀ b b' : SimBench T, b.native.queue = events ++ later →
      applyEvents events b = .done () b' → b'.native.queue = later := by
  induction events with
  | nil =>
    intro b b' hqueue h
    obtain ⟨-, rfl⟩ := Outcome.done.inj h
    exact hqueue
  | cons e rest ih =>
    intro b b' hqueue h
    obtain ⟨b₁, hone, hrest⟩ := applyEvents_cons_eq_done h
    have hchange := b.popped.applyChange_sameCourse e.signal e.value
    rw [hone] at hchange
    refine ih b₁ b' ?_ hrest
    rw [hchange.queue]
    show b.native.queue.tail = rest ++ later
    rw [hqueue]
    rfl

theorem Idle.step {b : SimBench T} (h : Idle b) (order : VisitOrder SignalId) :
    b.step order = b.advance := by
  rw [step_eq, h.flush]
  rfl

/-- Steps go on as long as there are events, and each of them takes those of one time off the
queue. -/
theorem queue_of_advance {b b' : SimBench T} {found : StepResult}
    (h : b.advance = .done found b') :
    (found = .done ↔ b.native.queue = []) ∧
      b'.native.queue = b.native.queue.dropWhile fun e => b.native.nextTime? = some e.time := by
  rw [advance] at h
  cases hqueue : b.native.queue with
  | nil =>
    rw [nextTime?_nil hqueue] at h
    obtain ⟨rfl, rfl⟩ := Outcome.done.inj h
    simpa using hqueue
  | cons e rest =>
    have hnext : b.native.nextTime? = some e.time := nextTime?_cons hqueue
    rw [hnext] at h
    dsimp only at h
    cases happly : applyEvents (b.native.queue.takeWhile (·.time = e.time))
        (b.onSim fun s => { s with now := e.time }) with
    | fault f =>
      rw [happly] at h
      cases h
    | failed error b₁ =>
      rw [happly] at h
      cases h
    | done _ b₁ =>
      rw [happly] at h
      obtain ⟨rfl, rfl⟩ := Outcome.done.inj h
      refine ⟨by simp, ?_⟩
      -- what is applied has left the queue, and these are the events of its time
      have hleft : b₁.native.queue = b.native.queue.dropWhile (·.time = e.time) := by
        refine queue_of_applyEvents _ _ _ _ ?_ happly
        exact List.takeWhile_append_dropWhile.symm
      rw [← hqueue, hnext]
      show b₁.native.queue = _
      rw [hleft]
      congr 1
      funext a
      simp [eq_comm]

/-- A step that finds an event shortens the queue. -/
theorem length_lt_of_advance {b b' : SimBench T} {found : StepResult}
    (h : b.advance = .done found b') (hqueue : b.native.queue ≠ []) :
    b'.native.queue.length < b.native.queue.length := by
  obtain ⟨-, hleft⟩ := queue_of_advance h
  obtain ⟨e, rest, hcons⟩ := List.exists_cons_of_ne_nil hqueue
  have hnext : b.native.nextTime? = some e.time := nextTime?_cons hcons
  have hhead : b'.native.queue = rest.dropWhile fun e => b.native.nextTime? = some e.time := by
    rw [hleft, hcons, List.dropWhile_cons_of_pos (by simp [hnext])]
  rw [hhead, hcons, List.length_cons]
  have hle := rest.length_dropWhile_le fun e => b.native.nextTime? = some e.time
  omega

/-! ### Calls of the native layer -/

/-- The calls that an operation of a context makes to the simulator. -/
def nativeCalls (b : SimBench T) (op : Op SignalId) : List (NativeCall SignalId CallbackHandle) :=
  let recorded : Bench (NativeRecord Sim SignalId CallbackHandle) T SignalId CallbackHandle :=
    ⟨b.mux, ⟨b.native, []⟩, b.scheduler, b.log⟩
  match (recorded.perform op).final with
  | .ok b' => b'.native.calls
  | .error _ => []

end Bench

/-- The calls to the simulator in the course of a call of a callback. -/
def Call.nativeCalls {T : Type} [Scheduler T] (call : Call T) :
    List (NativeCall SignalId CallbackHandle) :=
  if call.isLive then call.bench.nativeCalls (.deliver call.callback.key call.value) else []

/-- The calls to the simulator in a stage. -/
def Stage.nativeCalls {T : Type} [Scheduler T] :
    Stage T → List (NativeCall SignalId CallbackHandle)
  | flush b order => b.nativeCalls (.flush order)
  | event m => m.calls.flatMap (·.nativeCalls)

/-- An outcome, and the calls to the simulator on the way to it. -/
structure Told (T ε α : Type) where
  outcome : Outcome ε (SimBench T) α
  calls : List (NativeCall SignalId CallbackHandle)

namespace Told

variable {T ε α β γ : Type}

/-- Goes on with the answer and the state, unless there is none to go on with. -/
def andThen (t : Told T ε α) (next : α → SimBench T → Told T ε β) : Told T ε β :=
  match t.outcome with
  | .done a b => ⟨(next a b).outcome, t.calls ++ (next a b).calls⟩
  | .failed e b => ⟨.failed e b, t.calls⟩
  | .fault f => ⟨.fault f, t.calls⟩

/-- An answer at once. -/
def answer (a : α) (b : SimBench T) : Told T ε α := ⟨.done a b, []⟩

@[simp] theorem answer_andThen (a : α) (b : SimBench T) (next : α → SimBench T → Told T ε β) :
    (answer a b).andThen next = next a b := rfl

theorem andThen_assoc (t : Told T ε α) (next : α → SimBench T → Told T ε β)
    (last : β → SimBench T → Told T ε γ) :
    (t.andThen next).andThen last = t.andThen fun a b => (next a b).andThen last := by
  obtain ⟨o, calls⟩ := t
  cases o with
  | fault f => rfl
  | failed e b => rfl
  | done a b =>
    simp only [andThen]
    cases (next a b).outcome with
    | fault f => rfl
    | failed e b' => rfl
    | done a' b' => simp only [List.append_assoc]

@[simp] theorem andThen_answer (t : Told T ε α) : (t.andThen fun a b => answer a b) = t := by
  obtain ⟨o, calls⟩ := t
  cases o with
  | fault f => rfl
  | failed e b => rfl
  | done a b => simp [andThen, answer]

theorem andThen_congr {t : Told T ε α} {next next' : α → SimBench T → Told T ε β}
    (h : ∀ a b, t.outcome = .done a b → next a b = next' a b) :
    t.andThen next = t.andThen next' := by
  obtain ⟨o, calls⟩ := t
  cases o with
  | fault f => rfl
  | failed e b => rfl
  | done a b => simp only [andThen, h a b rfl]

end Told

namespace Bench

variable {T : Type} [Scheduler T]

def tellFlush (order : VisitOrder SignalId) (b : SimBench T) : Told T SimError Unit where
  outcome := ((b.flush order).mapError .mux).andThen fun _ b => .done () b
  calls := b.nativeCalls (.flush order)

def tellStep (order : VisitOrder SignalId) (b : SimBench T) : Told T SimError StepResult where
  outcome := b.step order
  calls := (b.stepStages order).flatMap (·.nativeCalls)

def tellSteps (n : Nat) (orders : Nat → VisitOrder SignalId) (b : SimBench T) :
    Told T SimError Unit where
  outcome := runSteps n orders b
  calls := (runStepsStages n orders b).flatMap (·.nativeCalls)

def tellStepsUntil (limit : SimTime) (n : Nat) (orders : Nat → VisitOrder SignalId)
    (b : SimBench T) : Told T SimError Unit where
  outcome := runStepsUntil limit n orders b
  calls := (runStepsUntilStages limit n orders b).flatMap (·.nativeCalls)

/-- A run until the queue is empty, told with its calls to the simulator. -/
def tellRun (orders : Nat → VisitOrder SignalId) (b : SimBench T) : Told T SimError SimTime where
  outcome := b.run orders
  calls := (b.runStages orders).flatMap (·.nativeCalls)

/-- A run up to a limit, told with its calls to the simulator. -/
def tellRunUntil (orders : Nat → VisitOrder SignalId) (limit : SimTime) (b : SimBench T) :
    Told T SimError SimTime where
  outcome := b.runUntil orders limit
  calls := (b.runUntilStages orders limit).flatMap (·.nativeCalls)

/-! ### The loops, told -/

/-- A step without its flush, told with its calls to the simulator. -/
def tellAdvance (b : SimBench T) : Told T SimError StepResult where
  outcome := b.advance
  calls := b.advanceStages.flatMap (·.nativeCalls)

theorem tellStep_eq (order : VisitOrder SignalId) (b : SimBench T) :
    b.tellStep order = (b.tellFlush order).andThen fun _ b => b.tellAdvance := by
  rw [tellStep, tellFlush, Told.andThen, step_eq, stepStages, List.flatMap_cons, Stage.nativeCalls]
  cases b.flush order with
  | fault f => simp [Outcome.mapError, Outcome.andThen]
  | failed e b₁ => simp [Outcome.mapError, Outcome.andThen]
  | done summary b₁ => rfl

theorem Idle.tellFlush {b : SimBench T} (h : Idle b) (order : VisitOrder SignalId) :
    b.tellFlush order = .answer () b := by
  have hcalls : b.nativeCalls (.flush order) = [] := by
    have hrecorded : Idle (N := NativeRecord Sim SignalId CallbackHandle)
        ⟨b.mux, ⟨b.native, []⟩, b.scheduler, b.log⟩ := ⟨h.live, h.pending⟩
    rw [nativeCalls, perform, hrecorded.flush]
    rfl
  rw [Bench.tellFlush, h.flush, hcalls]
  rfl

theorem Idle.tellStep {b : SimBench T} (h : Idle b) (order : VisitOrder SignalId) :
    b.tellStep order = b.tellAdvance := by
  rw [tellStep_eq, h.tellFlush, Told.answer_andThen]

theorem tellStepsUntil_zero (limit : SimTime) (orders : Nat → VisitOrder SignalId)
    (b : SimBench T) : tellStepsUntil limit 0 orders b = b.tellFlush (orders 0) := by
  rw [tellStepsUntil, runStepsUntilStages, List.flatMap_singleton]
  rfl

theorem tellStepsUntil_succ_of_due {limit : SimTime} {b : SimBench T}
    (hdue : b.native.nextTime?.any (·.fs ≤ limit.fs) = true) (n : Nat)
    (orders : Nat → VisitOrder SignalId) :
    tellStepsUntil limit (n + 1) orders b = (b.tellStep (orders 0)).andThen fun _ b =>
      tellStepsUntil limit n (fun i => orders (i + 1)) b := by
  rw [tellStepsUntil, runStepsUntil, runStepsUntilStages, if_pos hdue, if_pos hdue,
    List.flatMap_append, Bench.tellStep, Told.andThen]
  cases b.step (orders 0) with
  | fault f => simp
  | failed e b₁ => simp
  | done found b₁ => rfl

theorem tellStepsUntil_of_not_due {limit : SimTime} {b : SimBench T}
    (hdue : b.native.nextTime?.any (·.fs ≤ limit.fs) = false) (n : Nat)
    (orders : Nat → VisitOrder SignalId) :
    tellStepsUntil limit n orders b = b.tellFlush (orders 0) := by
  cases n with
  | zero => exact tellStepsUntil_zero limit orders b
  | succ n =>
    rw [tellStepsUntil, runStepsUntil, runStepsUntilStages, hdue, if_neg Bool.false_ne_true,
      if_neg Bool.false_ne_true, List.flatMap_singleton]
    rfl

omit [Scheduler T] in
/-- Without events there is nothing to take a step for. -/
theorem not_due_of_queue {b : SimBench T} (h : b.native.queue = []) (limit : SimTime) :
    b.native.nextTime?.any (·.fs ≤ limit.fs) = false := by
  rw [nextTime?_nil h]
  rfl

theorem tellAdvance_of_queue {b : SimBench T} (h : b.native.queue = []) :
    b.tellAdvance = .answer .done b := by
  rw [tellAdvance, advance, advanceStages, nextTime?_nil h]
  rfl

theorem tellSteps_zero (orders : Nat → VisitOrder SignalId) (b : SimBench T) :
    tellSteps 0 orders b = (b.tellStep (orders 0)).andThen fun _ b => .answer () b := by
  rw [tellSteps, runSteps, runStepsStages, tellStep, Told.andThen]
  cases b.step (orders 0) with
  | fault f => rfl
  | failed e b₁ => rfl
  | done found b₁ => simp [Outcome.andThen, Told.answer]

theorem tellSteps_succ (n : Nat) (orders : Nat → VisitOrder SignalId) (b : SimBench T) :
    tellSteps (n + 1) orders b = (b.tellStep (orders 0)).andThen fun found b =>
      match found with
      | .done => .answer () b
      | .continued => tellSteps n (fun i => orders (i + 1)) b := by
  rw [tellSteps, runSteps, runStepsStages, List.flatMap_append, tellStep, Told.andThen]
  cases b.step (orders 0) with
  | fault f => simp
  | failed e b₁ => simp
  | done found b₁ =>
    cases found with
    | done => rfl
    | continued => rfl

/-! ### Flushes and steps that succeed -/

theorem of_tellFlush {b b₁ : SimBench T} {order : VisitOrder SignalId} {u : Unit}
    (h : (b.tellFlush order).outcome = .done u b₁) :
    Idle b₁ ∧ b₁.native.queue = b.native.queue := by
  rw [tellFlush] at h
  cases hflush : b.flush order with
  | fault f =>
    rw [hflush] at h
    cases h
  | failed e b₂ =>
    rw [hflush] at h
    cases h
  | done summary b₂ =>
    rw [hflush] at h
    obtain ⟨-, rfl⟩ := Outcome.done.inj h
    exact ⟨idle_of_flush hflush, (sameCourse_of_flush hflush).queue⟩

/-- **A step** that has succeeded leaves nothing to flush, and fewer events than there were. -/
theorem of_tellStep {b b' : SimBench T} {order : VisitOrder SignalId} {found : StepResult}
    (h : (b.tellStep order).outcome = .done found b') (hqueue : b.native.queue ≠ []) :
    Idle b' ∧ found = .continued ∧ b'.native.queue.length < b.native.queue.length := by
  refine ⟨idle_of_step h, ?_⟩
  obtain ⟨summary, b₁, hflush, hadvance⟩ := step_eq_done h
  rw [← (sameCourse_of_flush hflush).queue] at hqueue ⊢
  refine ⟨?_, length_lt_of_advance hadvance hqueue⟩
  cases found with
  | done => exact absurd ((queue_of_advance hadvance).1.mp rfl) hqueue
  | continued => rfl

/-! ### Stopping and going on -/

/-- **Idle contexts** take the same steps in whatever orders, and however many are allowed. -/
theorem Idle.tellStepsUntil_congr (limit : SimTime) (n : Nat) :
    ∀ (n' : Nat) (orders orders' : Nat → VisitOrder SignalId) (b : SimBench T), Idle b →
      b.native.queue.length ≤ n → b.native.queue.length ≤ n' →
      tellStepsUntil limit n orders b = tellStepsUntil limit n' orders' b := by
  induction n with
  | zero =>
    intro n' orders orders' b h hn _
    have hdue := not_due_of_queue (List.length_eq_zero_iff.mp (Nat.le_zero.mp hn)) limit
    rw [tellStepsUntil_of_not_due hdue, tellStepsUntil_of_not_due hdue, h.tellFlush, h.tellFlush]
  | succ n ih =>
    intro n' orders orders' b h hn hn'
    cases hdue : b.native.nextTime?.any (·.fs ≤ limit.fs) with
    | false =>
      rw [tellStepsUntil_of_not_due hdue, tellStepsUntil_of_not_due hdue, h.tellFlush, h.tellFlush]
    | true =>
      have hqueue : b.native.queue ≠ [] := by
        intro hnil
        rw [not_due_of_queue hnil limit] at hdue
        cases hdue
      obtain ⟨m, rfl⟩ : ∃ m, n' = m + 1 := by
        have hpos := List.length_pos_iff.mpr hqueue
        exact ⟨n' - 1, by omega⟩
      rw [tellStepsUntil_succ_of_due hdue, tellStepsUntil_succ_of_due hdue, h.tellStep, h.tellStep]
      refine Told.andThen_congr fun found b₁ hb₁ => ?_
      rw [← h.tellStep (orders 0)] at hb₁
      obtain ⟨hidle, -, hlt⟩ := of_tellStep hb₁ hqueue
      exact ih m _ _ b₁ hidle (by omega) (by omega)

/-- A flush before the first step does no more than the one that the step begins with. -/
theorem tellFlush_andThen (limit : SimTime) {n n' : Nat} {b : SimBench T}
    (hn : b.native.queue.length ≤ n) (hn' : b.native.queue.length ≤ n')
    (orders orders' : Nat → VisitOrder SignalId) :
    ((b.tellFlush (orders 0)).andThen fun _ b => tellStepsUntil limit n' orders' b) =
      tellStepsUntil limit n orders b := by
  calc ((b.tellFlush (orders 0)).andThen fun _ b => tellStepsUntil limit n' orders' b)
      = (b.tellFlush (orders 0)).andThen fun _ b => tellStepsUntil limit n orders b := by
        refine Told.andThen_congr fun _ b₁ hb₁ => ?_
        obtain ⟨hidle, hqueue⟩ := of_tellFlush hb₁
        rw [← hqueue] at hn hn'
        exact hidle.tellStepsUntil_congr limit n' n orders' orders b₁ hn' hn
    _ = tellStepsUntil limit n orders b := ?_
  -- whether a step is due is not for the flush to decide
  have hsame : ∀ b₁ : SimBench T, b₁.native.queue = b.native.queue →
      b₁.native.nextTime? = b.native.nextTime? := by
    intro b₁ hqueue
    rw [nextTime?, hqueue, nextTime?]
  cases hdue : b.native.nextTime?.any (·.fs ≤ limit.fs) with
  | false =>
    rw [tellStepsUntil_of_not_due hdue, ← Told.andThen_answer (b.tellFlush (orders 0)),
      Told.andThen_assoc]
    refine Told.andThen_congr fun _ b₁ hb₁ => ?_
    obtain ⟨hidle, hqueue⟩ := of_tellFlush hb₁
    rw [Told.answer_andThen, tellStepsUntil_of_not_due (by rw [hsame b₁ hqueue, hdue]),
      hidle.tellFlush]
  | true =>
    obtain ⟨m, rfl⟩ : ∃ m, n = m + 1 := by
      cases n with
      | zero =>
        rw [not_due_of_queue (List.length_eq_zero_iff.mp (Nat.le_zero.mp hn))] at hdue
        cases hdue
      | succ m => exact ⟨m, rfl⟩
    rw [tellStepsUntil_succ_of_due hdue, tellStep_eq, Told.andThen_assoc]
    refine Told.andThen_congr fun _ b₁ hb₁ => ?_
    obtain ⟨hidle, hqueue⟩ := of_tellFlush hb₁
    rw [tellStepsUntil_succ_of_due (by rw [hsame b₁ hqueue, hdue]), hidle.tellStep]

/-- **Up to one limit, and then up to a later one**, from a state with at most `n` events. -/
theorem tellStepsUntil_andThen {l₁ l₂ : SimTime} (hle : l₁.fs ≤ l₂.fs)
    (orders' : Nat → VisitOrder SignalId) (n : Nat) :
    ∀ (orders : Nat → VisitOrder SignalId) (b : SimBench T), b.native.queue.length ≤ n →
      ((tellStepsUntil l₁ n orders b).andThen fun _ b =>
        tellStepsUntil l₂ b.native.queue.length orders' b) = tellStepsUntil l₂ n orders b := by
  -- no step is due before the first limit: what is left of that run is its flush
  have hstop : ∀ (n : Nat) (orders : Nat → VisitOrder SignalId) (b : SimBench T),
      b.native.queue.length ≤ n → b.native.nextTime?.any (·.fs ≤ l₁.fs) = false →
      ((tellStepsUntil l₁ n orders b).andThen fun _ b =>
        tellStepsUntil l₂ b.native.queue.length orders' b) = tellStepsUntil l₂ n orders b := by
    intro n orders b hn hdue
    rw [tellStepsUntil_of_not_due hdue,
      ← tellFlush_andThen l₂ hn (Nat.le_refl b.native.queue.length) orders orders']
    refine Told.andThen_congr fun _ b₁ hb₁ => ?_
    rw [(of_tellFlush hb₁).2]
  induction n with
  | zero =>
    intro orders b hn
    exact hstop 0 orders b hn
      (not_due_of_queue (List.length_eq_zero_iff.mp (Nat.le_zero.mp hn)) l₁)
  | succ n ih =>
    intro orders b hn
    cases hdue : b.native.nextTime?.any (·.fs ≤ l₁.fs) with
    | false => exact hstop (n + 1) orders b hn hdue
    | true =>
      have hqueue : b.native.queue ≠ [] := by
        intro hnil
        rw [not_due_of_queue hnil l₁] at hdue
        cases hdue
      have hlater : b.native.nextTime?.any (·.fs ≤ l₂.fs) = true := by
        cases htime : b.native.nextTime? with
        | none =>
          rw [htime] at hdue
          cases hdue
        | some time =>
          rw [htime, Option.any_some, decide_eq_true_eq] at hdue
          rw [Option.any_some, decide_eq_true_eq]
          exact UInt64.le_trans hdue hle
      rw [tellStepsUntil_succ_of_due hdue, tellStepsUntil_succ_of_due hlater, Told.andThen_assoc]
      refine Told.andThen_congr fun found b₁ hb₁ => ?_
      have hlt := (of_tellStep hb₁ hqueue).2.2
      exact ih _ b₁ (by omega)

end Bench

/-- The end of time, which a word can just hold. -/
def SimTime.last : SimTime := ⟨18446744073709551615⟩

namespace Bench

variable {T : Type} [Scheduler T]

/-- **Without a limit**, from a state with at most `n` events. -/
theorem tellSteps_eq (n : Nat) :
    ∀ (orders : Nat → VisitOrder SignalId) (b : SimBench T), b.native.queue.length ≤ n →
      tellSteps n orders b = tellStepsUntil .last n orders b := by
  -- with an empty queue both flush, and find nothing else to do
  have hempty : ∀ (order : VisitOrder SignalId) (b : SimBench T)
      (next : StepResult → SimBench T → Told T SimError Unit), b.native.queue = [] →
      (∀ b, next .done b = .answer () b) →
      (b.tellStep order).andThen next = b.tellFlush order := by
    intro order b next hqueue hnext
    rw [tellStep_eq, Told.andThen_assoc, ← Told.andThen_answer (b.tellFlush order),
      Told.andThen_assoc]
    refine Told.andThen_congr fun _ b₁ hb₁ => ?_
    rw [Told.answer_andThen, tellAdvance_of_queue ((of_tellFlush hb₁).2.trans hqueue),
      Told.answer_andThen, hnext]
  induction n with
  | zero =>
    intro orders b hn
    have hqueue := List.length_eq_zero_iff.mp (Nat.le_zero.mp hn)
    rw [tellSteps_zero, hempty _ _ _ hqueue fun _ => rfl, tellStepsUntil_zero]
  | succ n ih =>
    intro orders b hn
    by_cases hqueue : b.native.queue = []
    · rw [tellSteps_succ, hempty _ _ _ hqueue fun _ => rfl,
        tellStepsUntil_of_not_due (not_due_of_queue hqueue _)]
    · obtain ⟨e, rest, hcons⟩ := List.exists_cons_of_ne_nil hqueue
      have hdue : b.native.nextTime?.any (·.fs ≤ SimTime.last.fs) = true := by
        rw [nextTime?_cons hcons]
        simp only [Option.any_some, decide_eq_true_eq]
        exact UInt64.le_iff_toNat_le.mpr (Nat.le_of_lt_succ e.time.fs.toNat_lt)
      rw [tellSteps_succ, tellStepsUntil_succ_of_due hdue]
      refine Told.andThen_congr fun found b₁ hb₁ => ?_
      obtain ⟨-, rfl, hlt⟩ := of_tellStep hb₁ hqueue
      exact ih _ b₁ (by omega)

theorem tellRunUntil_eq (orders : Nat → VisitOrder SignalId) (limit : SimTime) (b : SimBench T) :
    b.tellRunUntil orders limit =
      (tellStepsUntil limit b.native.queue.length orders b).andThen fun _ b =>
        .answer b.native.now b := by
  rw [tellRunUntil, runUntil, runUntilStages, tellStepsUntil, Told.andThen]
  cases runStepsUntil limit b.native.queue.length orders b with
  | fault f => rfl
  | failed e b₁ => rfl
  | done _ b₁ => simp [Outcome.andThen, Told.answer]

theorem tellRun_eq (orders : Nat → VisitOrder SignalId) (b : SimBench T) :
    b.tellRun orders = (tellSteps b.native.queue.length orders b).andThen fun _ b =>
      .answer b.native.now
        (b.note (.finished b.native.now b.native.steps b.native.delivered)) := by
  rw [tellRun, run, runStages, tellSteps, Told.andThen]
  cases runSteps b.native.queue.length orders b with
  | fault f => rfl
  | failed e b₁ => rfl
  | done _ b₁ => simp [Outcome.andThen, Told.answer]

/-- **Stopping points do not matter.**  The scheduler keeps a record of its calls, so states that are
equal have heard the same calls of it. -/
theorem stopping_points {l₁ l₂ : SimTime} (hle : l₁.fs ≤ l₂.fs)
    (b : SimBench (SchedulerRecord T)) (orders orders' : Nat → VisitOrder SignalId) :
    ((b.tellRunUntil orders l₁).andThen fun _ b => b.tellRunUntil orders' l₂) =
        b.tellRunUntil orders l₂ ∧
      b.tellRun orders = (b.tellRunUntil orders .last).andThen fun time b =>
        .answer time (b.note (.finished b.native.now b.native.steps b.native.delivered)) := by
  constructor
  · have htwice := tellStepsUntil_andThen hle orders' b.native.queue.length orders b (Nat.le_refl _)
    rw [tellRunUntil_eq, tellRunUntil_eq, ← htwice, Told.andThen_assoc, Told.andThen_assoc]
    refine Told.andThen_congr fun _ b₁ _ => ?_
    rw [Told.answer_andThen, tellRunUntil_eq]
  · rw [tellRun_eq, tellRunUntil_eq, Told.andThen_assoc, tellSteps_eq _ orders b (Nat.le_refl _)]
    rfl

/-- Two waits for a signal that rises at one time and falls at a later one. -/
def riseAndFall : List HostOp :=
  [.addSignal "ready" .zero, .context (.addWait ⟨0⟩ .rising ⟨1⟩),
    .context (.addWait ⟨0⟩ .falling ⟨2⟩), .schedule ⟨5⟩ ⟨0⟩ .one, .schedule ⟨8⟩ ⟨0⟩ .zero]

/-- The scheduler fails beyond the first limit, so the run up to the later one stops on an error. -/
theorem stopping_points_riseAndFall :
    ∃ (b₀ b b₁ b₂ : SimBench (SchedulerRecord ScriptedScheduler)) (e : SimError),
      New b₀ ∧ hostAll riseAndFall b₀ = .ok b ∧
      b.runUntil (fun _ => .recorded _) ⟨6⟩ = .done ⟨5⟩ b₁ ∧ b₁.resumed = [[⟨1⟩]] ∧
      b.runUntil (fun _ => .recorded _) ⟨9⟩ = .failed e b₂ ∧ b₂.resumed = [[⟨1⟩], [⟨2⟩]] ∧
      (b.tellRunUntil (fun _ => .recorded _) ⟨6⟩).calls.length = 3 ∧
      (b.tellRunUntil (fun _ => .recorded _) ⟨9⟩).calls.length = 4 ∧
      (⟨6⟩ : SimTime).fs ≤ (⟨9⟩ : SimTime).fs ∧
      ((b.tellRunUntil (fun _ => .recorded _) ⟨6⟩).andThen fun _ b =>
        b.tellRunUntil (fun _ => .recorded _) ⟨9⟩) = b.tellRunUntil (fun _ => .recorded _) ⟨9⟩ := by
  obtain ⟨b₀, b, b₁, b₂, e, hnew, hrun, hfirst, hresumed, hsecond, hresumed', hcalls, hcalls'⟩ :
      ∃ (b₀ b b₁ b₂ : SimBench (SchedulerRecord ScriptedScheduler)) (e : SimError),
        New b₀ ∧ hostAll riseAndFall b₀ = .ok b ∧
        b.runUntil (fun _ => .recorded _) ⟨6⟩ = .done ⟨5⟩ b₁ ∧ b₁.resumed = [[⟨1⟩]] ∧
        b.runUntil (fun _ => .recorded _) ⟨9⟩ = .failed e b₂ ∧ b₂.resumed = [[⟨1⟩], [⟨2⟩]] ∧
        (b.tellRunUntil (fun _ => .recorded _) ⟨6⟩).calls.length = 3 ∧
        (b.tellRunUntil (fun _ => .recorded _) ⟨9⟩).calls.length = 4 :=
    ⟨_, _, _, _, _, ⟨{ pool := { capacity := 2 } }, [], _, .initial,
      ⟨.failingAt [2] ⟨"no such task", ""⟩, []⟩, rfl, ⟨rfl, rfl⟩, rfl, rfl, rfl, rfl⟩, rfl, rfl, rfl,
      rfl, rfl, rfl, rfl⟩
  have hle : (⟨6⟩ : SimTime).fs ≤ (⟨9⟩ : SimTime).fs := by decide
  exact ⟨b₀, b, b₁, b₂, e, hnew, hrun, hfirst, hresumed, hsecond, hresumed', hcalls, hcalls', hle,
    (stopping_points hle b (fun _ => .recorded _) fun _ => .recorded _).1⟩

end Bench

end EdgeWait
