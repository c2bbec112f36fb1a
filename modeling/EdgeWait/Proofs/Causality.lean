/-
The order in which the events of a simulator are applied.

* `enqueue_pairwise` — the queue stays in the order of time and of scheduling;
* `traced_advances` — to run the simulator takes events off the head of the queue, and moves the
  time on to the last of them (`Advances`);
* `causality` — so over any run the events are applied in that order, each of them once, none is
  lost, and none comes before the present.

Design notes: a turn takes whatever context, scheduler and log it is given, in any state (`SimTurn`).
Nothing is assumed about them, so a step may stop on an error wherever a context makes it stop.  The
events that a run applies are not kept anywhere; they are those of its stages.
-/
import EdgeWait.Proofs.Traces

namespace EdgeWait

open Sim

/-! ### The queue -/

theorem Event.before_iff (a b : Event) :
    a.before b = true ↔ a.time.fs < b.time.fs ∨ a.time.fs = b.time.fs ∧ a.seq < b.seq := by
  simp [Event.before]

theorem Event.time_le_of_before {a b : Event} (h : a.before b = true) : a.time.fs ≤ b.time.fs := by
  rcases (a.before_iff b).mp h with hlt | ⟨heq, -⟩
  · exact UInt64.le_of_lt hlt
  · exact UInt64.le_of_eq heq

/-- What has been scheduled earlier, for no later, happens earlier. -/
theorem Event.before_of_le {a b : Event} (htime : a.time.fs ≤ b.time.fs) (hseq : a.seq < b.seq) :
    a.before b = true := by
  rw [before_iff]
  by_cases heq : a.time.fs = b.time.fs
  · exact .inr ⟨heq, hseq⟩
  · exact .inl (UInt64.lt_of_le_of_ne htime heq)

theorem enqueue_perm (e : Event) (queue : List Event) : (enqueue e queue).Perm (e :: queue) := by
  induction queue with
  | nil => exact List.Perm.refl _
  | cons a rest ih =>
    rw [enqueue]
    split
    · exact (ih.cons a).trans (List.Perm.swap e a rest)
    · exact List.Perm.refl _

/-- **The queue stays in order** when an event is put into it that has been scheduled last. -/
theorem enqueue_pairwise {e : Event} {queue : List Event}
    (hsorted : queue.Pairwise (·.before · = true)) (hlast : ∀ a ∈ queue, a.seq < e.seq) :
    (enqueue e queue).Pairwise (·.before · = true) := by
  induction queue with
  | nil => exact List.pairwise_singleton _ _
  | cons a rest ih =>
    obtain ⟨ha, hrest⟩ := List.pairwise_cons.mp hsorted
    rw [enqueue]
    split
    case isTrue hae =>
      refine List.pairwise_cons.mpr ⟨fun b hb => ?_, ih hrest fun b hb => hlast b (by simp [hb])⟩
      rcases List.mem_cons.mp ((enqueue_perm e rest).mem_iff.mp hb) with rfl | hb
      · exact hae
      · exact ha b hb
    case isFalse hae =>
      -- `e` happens before `a`, and so before everything behind it
      have hlt : e.time.fs < a.time.fs := by
        by_contra hle
        exact hae (a.before_of_le (UInt64.not_lt.mp hle) (hlast a (by simp)))
      refine List.pairwise_cons.mpr ⟨fun b hb => ?_, hsorted⟩
      rw [Event.before_iff]
      rcases List.mem_cons.mp hb with rfl | hb
      · exact .inl hlt
      · exact .inl (UInt64.lt_of_lt_of_le hlt (Event.time_le_of_before (ha b hb)))

/-! ### Turns of a simulator -/

/-- An operation of the host, with a context, a scheduler and a log to perform it with. -/
structure SimTurn (T : Type) where
  mux : Mux SignalId CallbackHandle
  scheduler : T
  log : Log
  op : HostOp

/-- The context of a turn at work on a simulator. -/
def SimTurn.on {T : Type} (t : SimTurn T) (s : Sim) : SimBench T where
  mux := t.mux
  native := s
  scheduler := t.scheduler
  log := t.log

namespace Sim

variable {T : Type} [Scheduler T]

/-- The simulator after a turn, which may have reported an error. -/
def turn (s : Sim) (t : SimTurn T) : Except Fault Sim := ((t.on s).host t.op).map (·.native)

def after : List (SimTurn T) → Sim → Except Fault Sim
  | [], s => .ok s
  | t :: rest, s =>
    match s.turn t with
    | .error f => .error f
    | .ok s => after rest s

/-- A turn is an operation of its host. -/
theorem turn_eq_ok {s s' : Sim} {t : SimTurn T} (h : s.turn t = .ok s') :
    ∃ b', (t.on s).host t.op = .ok b' ∧ b'.native = s' := by
  rw [turn] at h
  cases hb : (t.on s).host t.op with
  | error f =>
    rw [hb] at h
    cases h
  | ok b' =>
    rw [hb] at h
    exact ⟨b', rfl, Except.ok.inj h⟩

theorem after_append_eq_ok {ts us : List (SimTurn T)} :
    ∀ {s s'' : Sim}, after (ts ++ us) s = .ok s'' ↔
      ∃ s', after ts s = .ok s' ∧ after us s' = .ok s'' := by
  induction ts with
  | nil => simp [after]
  | cons t rest ih =>
    intro s s''
    rw [List.cons_append, after, after]
    cases s.turn t with
    | error f => simp
    | ok s' => exact ih

theorem after_cons_eq_ok {t : SimTurn T} {rest : List (SimTurn T)} {s s'' : Sim} :
    after (t :: rest) s = .ok s'' ↔ ∃ s', s.turn t = .ok s' ∧ after rest s' = .ok s'' := by
  rw [after]
  cases s.turn t with
  | error f => simp
  | ok s' => simp

end Sim

/-! ### Events that are applied -/

namespace Bench

variable {T : Type} [Scheduler T]

/-- The events that an operation of the host applies. -/
def events (b : SimBench T) (op : HostOp) : List Event := (b.stages op).filterMap Stage.event?

end Bench

namespace Sim

/-- The events that come of the edges of a clock, as far as they can be scheduled. -/
def clockEvents (signal : SignalId) (half : SimTime) (k : Nat) : Nat → Sim → List Event
  | 0, _ => []
  | n + 1, s =>
    match s.now.later half (UInt64.ofNat k) with
    | .error _ => []
    | .ok time =>
      match s.schedule time signal (clockValue k) with
      | .error _ => []
      | .ok s' => ⟨time, s.nextSeq, signal, clockValue k⟩ :: clockEvents signal half (k + 1) n s'

/-- The events that an operation of the host schedules. -/
def planned (s : Sim) : HostOp → List Event
  | .schedule time signal value =>
    match s.schedule time signal value with
    | .error _ => []
    | .ok _ => [⟨time, s.nextSeq, signal, value⟩]
  | .scheduleClock signal half cycles => clockEvents signal half 1 (2 * cycles.toNat) s
  | _ => []

variable {T : Type} [Scheduler T]

/-- The events that a run schedules, in turn. -/
def allPlanned : List (SimTurn T) → Sim → List Event
  | [], _ => []
  | t :: rest, s =>
    s.planned t.op ++
      match s.turn t with
      | .error _ => []
      | .ok s => allPlanned rest s

/-- The events that a run applies, in turn. -/
def allApplied : List (SimTurn T) → Sim → List Event
  | [], _ => []
  | t :: rest, s =>
    (t.on s).events t.op ++
      match s.turn t with
      | .error _ => []
      | .ok s => allApplied rest s

end Sim

/-! ### Running the simulator -/

namespace Sim

theorem sameEvents_addSignal (s : Sim) (name : String) (initial : Logic) :
    SameEvents s (((s.addSignal name initial).toOption.map (·.2)).getD s) := by
  rw [addSignal]
  cases s.findSignal name with
  | some known => exact .refl s
  | none => exact ⟨rfl, rfl, rfl⟩

/-- The queue is in order, and nothing in it is past. -/
structure Timely (s : Sim) : Prop where
  ordered : s.queue.Pairwise (·.before · = true)
  future : ∀ e ∈ s.queue, s.now.fs ≤ e.time.fs

theorem Timely.of_same {s s' : Sim} (h : s.Timely) (hsame : SameEvents s s') : s'.Timely := by
  refine ⟨?_, ?_⟩
  · rw [hsame.queue]
    exact h.ordered
  · rw [hsame.queue, hsame.now]
    exact h.future

/-- From `s` to `s'` these events have been applied. -/
structure Advances (s : Sim) (events : List Event) (s' : Sim) : Prop where
  timely : s'.Timely
  queue : s.queue = events ++ s'.queue
  nextSeq : s'.nextSeq = s.nextSeq
  now : s.now.fs ≤ s'.now.fs
  past : ∀ e ∈ events, e.time.fs ≤ s'.now.fs

theorem Advances.of_same {s s' : Sim} (h : s.Timely) (hsame : SameEvents s s') :
    Advances s [] s' := by
  refine ⟨h.of_same hsame, hsame.queue.symm, hsame.nextSeq, ?_, by simp⟩
  rw [hsame.now]
  exact UInt64.le_refl _

theorem Advances.trans {s s' s'' : Sim} {events events' : List Event} (h : Advances s events s')
    (h' : Advances s' events' s'') : Advances s (events ++ events') s'' where
  timely := h'.timely
  queue := by rw [h.queue, h'.queue, List.append_assoc]
  nextSeq := h'.nextSeq.trans h.nextSeq
  now := UInt64.le_trans h.now h'.now
  past := by
    intro e he
    rcases List.mem_append.mp he with he | he
    · exact UInt64.le_trans (h.past e he) h'.now
    · exact h'.past e he

theorem Advances.same {s s' s'' : Sim} {events : List Event} (h : Advances s events s')
    (hsame : SameEvents s' s'') : Advances s events s'' := by
  have hboth := h.trans (.of_same h.timely hsame)
  rwa [List.append_nil] at hboth

/-- The head of the queue is taken off when its time has come. -/
theorem Advances.pop {s : Sim} (h : s.Timely) {e : Event} {rest : List Event}
    (hqueue : s.queue = e :: rest) (hnow : e.time = s.now) :
    Advances s [e] { s with queue := s.queue.tail } := by
  have hordered := h.ordered
  rw [hqueue] at hordered
  refine ⟨⟨?_, ?_⟩, ?_, rfl, UInt64.le_refl _, ?_⟩
  · show s.queue.tail.Pairwise _
    rw [hqueue]
    exact (List.pairwise_cons.mp hordered).2
  · intro a ha
    exact h.future a (List.mem_of_mem_tail ha)
  · show s.queue = [e] ++ s.queue.tail
    rw [hqueue]
    rfl
  · intro a ha
    rw [List.mem_singleton.mp ha, hnow]
    exact UInt64.le_refl _

/-- The time moves on to that of the head of the queue. -/
theorem Advances.moveOn {s : Sim} (h : s.Timely) {now : SimTime} (hnext : s.nextTime? = some now) :
    Advances s [] { s with now } := by
  obtain ⟨e, he, rfl⟩ := Option.map_eq_some_iff.mp hnext
  obtain ⟨rest, hqueue⟩ := List.head?_eq_some_iff.mp he
  have hordered := h.ordered
  rw [hqueue] at hordered
  refine ⟨⟨h.ordered, fun a ha => ?_⟩, rfl, rfl, h.future e ?_, by simp⟩
  · rcases List.mem_cons.mp (hqueue ▸ ha) with rfl | ha
    · exact UInt64.le_refl _
    · exact Event.time_le_of_before ((List.pairwise_cons.mp hordered).1 a ha)
  · rw [hqueue]
    exact List.mem_cons_self

end Sim

namespace Bench

variable {T : Type} [Scheduler T]

/-- **Steps and runs** apply events of the next times, and move the time on to them. -/
theorem traced_advances : Traced (T := T) Fault.Any (·.native.Timely) (·.native.Timely)
    fun b stages b' => Advances b.native (stages.filterMap Stage.event?) b'.native where
  weaken := id
  refl := fun h => .of_same h (.refl _)
  trans := by
    intro b b' b'' stages stages' h h'
    rw [List.filterMap_append]
    exact h.trans h'
  flush := by
    intro b h order
    refine leads_of_upholds ((flush_sameCourse b order).imp fun b' hsame => ?_)
    exact ⟨h.of_same hsame.toSameEvents, .of_same h hsame.toSameEvents⟩
  moved := fun h hnext => ⟨(Advances.moveOn h hnext).timely, .moveOn h hnext⟩
  event := by
    intro b e rest h hqueue htime _
    have hpop : Advances b.native [e] b.popped.native := .pop h hqueue htime
    have hchange := b.popped.applyChange_sameCourse e.signal e.value
    refine leads_of_upholds (hchange.imp fun b' hsame => ?_)
    have hone := hpop.same hsame.toSameEvents
    exact ⟨hone.timely, hone⟩
  counted := fun h => ⟨h.of_same ⟨rfl, rfl, rfl⟩, .of_same h ⟨rfl, rfl, rfl⟩⟩
  finished := fun h _ _ _ => ⟨h, .of_same h (.refl _)⟩

/-- **One step** applies events of the next time. -/
theorem step_advances {b : SimBench T} (h : b.native.Timely) (order : VisitOrder SignalId) :
    (b.step order).Upholds Fault.Any fun b' =>
      Advances b.native (b.events (.step order)) b'.native :=
  ((traced_advances.step h order).faults fun _ _ => trivial).upholds

end Bench

/-! ### Scheduling -/

namespace Sim

/-- The events `accepted` have been scheduled, and of these `applied` have been applied.  The numbers
of the events begin with `first`. -/
structure Books (first : Nat) (accepted applied : List Event) (s : Sim) : Prop where
  ordered : (applied ++ s.queue).Pairwise (·.before · = true)
  past : ∀ e ∈ applied, e.time.fs ≤ s.now.fs
  future : ∀ e ∈ s.queue, s.now.fs ≤ e.time.fs
  kept : accepted.Perm (applied ++ s.queue)
  numbered : accepted.map (·.seq) = List.range' first accepted.length
  nextSeq : s.nextSeq = first + accepted.length

variable {first : Nat} {accepted applied : List Event} {s s' : Sim}

/-- With nothing to come the books are empty. -/
theorem books_start (hqueue : s.queue = []) : Books s.nextSeq [] [] s := by
  refine ⟨?_, by simp, ?_, ?_, rfl, rfl⟩
  · rw [hqueue]
    exact List.Pairwise.nil
  · simp [hqueue]
  · rw [hqueue]
    exact List.Perm.refl _

theorem Books.timely (h : Books first accepted applied s) : s.Timely :=
  ⟨(List.pairwise_append.mp h.ordered).2.1, h.future⟩

/-- Whatever has been scheduled has been scheduled before the next event. -/
theorem Books.seq_lt (h : Books first accepted applied s) {e : Event}
    (he : e ∈ applied ++ s.queue) : e.seq < s.nextSeq := by
  have hseq : e.seq ∈ accepted.map (·.seq) := List.mem_map_of_mem (h.kept.mem_iff.mpr he)
  rw [h.numbered, List.mem_range'_1] at hseq
  rw [h.nextSeq]
  exact hseq.2

/-- Events that leave the queue go from one account to the other. -/
theorem Books.advances (h : Books first accepted applied s) {events : List Event}
    (hadvances : Advances s events s') : Books first accepted (applied ++ events) s' := by
  have hsame : applied ++ s.queue = applied ++ events ++ s'.queue := by
    rw [hadvances.queue, List.append_assoc]
  refine ⟨hsame ▸ h.ordered, fun e he => ?_, hadvances.timely.future, hsame ▸ h.kept, h.numbered,
    hadvances.nextSeq.trans h.nextSeq⟩
  rcases List.mem_append.mp he with he | he
  · exact UInt64.le_trans (h.past e he) hadvances.now
  · exact hadvances.past e he

/-- **To schedule** puts an event behind everything that has been applied. -/
theorem Books.schedule (h : Books first accepted applied s) {time : SimTime} {signal : SignalId}
    {value : Logic} (hs : s.schedule time signal value = .ok s') :
    Books first (accepted ++ [⟨time, s.nextSeq, signal, value⟩]) applied s' ∧ s'.now = s.now := by
  rw [Sim.schedule] at hs
  by_cases hpast : time.fs < s.now.fs
  · rw [if_pos hpast] at hs
    cases hs
  rw [if_neg hpast] at hs
  obtain rfl := Except.ok.inj hs
  have hnow : s.now.fs ≤ time.fs := UInt64.not_lt.mp hpast
  set e : Event := ⟨time, s.nextSeq, signal, value⟩ with he
  obtain ⟨happlied, hqueue, hacross⟩ := List.pairwise_append.mp h.ordered
  have hperm := enqueue_perm e s.queue
  refine ⟨⟨?_, h.past, ?_, ?_, ?_, ?_⟩, rfl⟩
  -- an event that has been applied was not later than now, and has a smaller number
  · refine List.pairwise_append.mpr ⟨happlied, ?_, ?_⟩
    · exact enqueue_pairwise hqueue fun a ha => h.seq_lt (List.mem_append_right _ ha)
    · intro a ha b hb
      rcases List.mem_cons.mp (hperm.mem_iff.mp hb) with rfl | hb
      · exact Event.before_of_le (UInt64.le_trans (h.past a ha) hnow)
          (h.seq_lt (List.mem_append_left _ ha))
      · exact hacross a ha b hb
  · intro a ha
    rcases List.mem_cons.mp (hperm.mem_iff.mp ha) with rfl | ha
    · exact hnow
    · exact h.future a ha
  · calc (accepted ++ [e]).Perm ((applied ++ s.queue) ++ [e]) := h.kept.append_right _
      _ = applied ++ (s.queue ++ [e]) := List.append_assoc _ _ _
      _ |>.Perm (applied ++ enqueue e s.queue) :=
        (List.perm_append_singleton e s.queue |>.trans hperm.symm).append_left _
  · have hseq : e.seq = first + accepted.length := h.nextSeq
    rw [List.map_append, h.numbered, List.length_append, List.map_singleton, List.length_singleton,
      List.range'_concat, hseq, Nat.one_mul]
  · show s.nextSeq + 1 = _
    rw [h.nextSeq, List.length_append, List.length_singleton, Nat.add_assoc]

theorem Books.scheduleEdges (signal : SignalId) (half : SimTime) (n : Nat) :
    ∀ (k : Nat) (accepted : List Event) (s s' : Sim), Books first accepted applied s →
      (Sim.scheduleEdges signal half k n s).final = .ok s' →
      Books first (accepted ++ clockEvents signal half k n s) applied s' ∧ s'.now = s.now := by
  induction n with
  | zero =>
    intro k accepted s s' h hs
    obtain rfl := Except.ok.inj hs
    rw [clockEvents, List.append_nil]
    exact ⟨h, rfl⟩
  | succ n ih =>
    intro k accepted s s' h hs
    rw [Sim.scheduleEdges] at hs
    rw [clockEvents]
    cases htime : s.now.later half (UInt64.ofNat k) with
    | error f =>
      rw [htime] at hs
      cases hs
    | ok time =>
      simp only [htime] at hs ⊢
      cases hone : s.schedule time signal (clockValue k) with
      -- the edges before the one that is refused stay scheduled
      | error e =>
        rw [hone] at hs
        obtain rfl := Except.ok.inj hs
        dsimp only
        rw [List.append_nil]
        exact ⟨h, rfl⟩
      | ok s₁ =>
        rw [hone] at hs
        obtain ⟨h₁, hnow₁⟩ := h.schedule hone
        obtain ⟨h', hnow'⟩ := ih (k + 1) _ s₁ s' h₁ hs
        rw [List.append_assoc] at h'
        exact ⟨h', hnow'.trans hnow₁⟩

/-! ### Runs -/

variable {T : Type} [Scheduler T]

/-- **One turn** keeps the books, and does not turn the time back. -/
theorem Books.turn (h : Books first accepted applied s) {t : SimTurn T}
    (hturn : s.turn t = .ok s') :
    Books first (accepted ++ s.planned t.op) (applied ++ (t.on s).events t.op) s' ∧
      s.now.fs ≤ s'.now.fs := by
  obtain ⟨b', hb, rfl⟩ := turn_eq_ok hturn
  have htimely : (t.on s).native.Timely := h.timely
  -- operations that schedule nothing leave the first account as it is
  have hadvances : ∀ events, Advances s events b'.native →
      Books first (accepted ++ []) (applied ++ events) b'.native ∧ s.now.fs ≤ b'.native.now.fs := by
    intro events hadvances
    rw [List.append_nil]
    exact ⟨h.advances hadvances, hadvances.now⟩
  cases hop : t.op with
  | context op =>
    rw [hop] at hb
    have hsame := (Bench.perform_respected respected_sameCourse _ op).final hb
    exact hadvances [] (.of_same h.timely hsame.toSameEvents)
  | addSignal name initial =>
    rw [hop] at hb
    obtain rfl := Except.ok.inj hb
    exact hadvances [] (.of_same h.timely (sameEvents_addSignal s name initial))
  | schedule time signal value =>
    rw [hop] at hb
    obtain rfl := Except.ok.inj hb
    simp only [planned, Bench.events, Bench.stages, List.filterMap_nil, List.append_nil]
    cases hs : s.schedule time signal value with
    | error e =>
      simp only [List.append_nil]
      show Books _ _ _ ((s.schedule time signal value).toOption.getD s) ∧
        s.now.fs ≤ ((s.schedule time signal value).toOption.getD s).now.fs
      rw [hs]
      exact ⟨h, UInt64.le_refl _⟩
    | ok s₁ =>
      show Books _ _ _ ((s.schedule time signal value).toOption.getD s) ∧
        s.now.fs ≤ ((s.schedule time signal value).toOption.getD s).now.fs
      rw [hs]
      obtain ⟨hbooks, hnow⟩ := h.schedule hs
      exact ⟨hbooks, UInt64.le_of_eq (congrArg _ hnow.symm)⟩
  | scheduleClock signal half cycles =>
    rw [hop] at hb
    simp only [planned, Bench.events, Bench.stages, List.filterMap_nil, List.append_nil]
    rw [Bench.host] at hb
    cases hs : ((t.on s).native.scheduleClock signal half cycles).final with
    | error f =>
      rw [hs] at hb
      cases hb
    | ok s₁ =>
      rw [hs] at hb
      obtain rfl := Except.ok.inj hb
      obtain ⟨hbooks, hnow⟩ := Books.scheduleEdges signal half _ 1 accepted s s₁ h hs
      exact ⟨hbooks, UInt64.le_of_eq (congrArg _ hnow.symm)⟩
  | step order =>
    rw [hop] at hb
    exact hadvances _ (Bench.traced_advances.drives htimely rfl hb).2
  | run orders =>
    rw [hop] at hb
    exact hadvances _ (Bench.traced_advances.drives htimely rfl hb).2
  | runUntil orders limit =>
    rw [hop] at hb
    exact hadvances _ (Bench.traced_advances.drives htimely rfl hb).2

/-- A run keeps the books, and does not turn the time back. -/
theorem Books.after (turns : List (SimTurn T)) :
    ∀ (accepted applied : List Event) (s s' : Sim), Books first accepted applied s →
      Sim.after turns s = .ok s' →
      Books first (accepted ++ allPlanned turns s) (applied ++ allApplied turns s) s' ∧
        s.now.fs ≤ s'.now.fs := by
  induction turns with
  | nil =>
    rintro accepted applied s s' h ⟨⟩
    rw [allPlanned, allApplied, List.append_nil, List.append_nil]
    exact ⟨h, UInt64.le_refl _⟩
  | cons t rest ih =>
    intro accepted applied s s' h hrun
    obtain ⟨s₁, hturn, hrest⟩ := after_cons_eq_ok.mp hrun
    obtain ⟨h₁, hnow₁⟩ := h.turn hturn
    obtain ⟨h', hnow'⟩ := ih _ _ s₁ s' h₁ hrest
    rw [allPlanned, allApplied, hturn, ← List.append_assoc, ← List.append_assoc]
    exact ⟨h', UInt64.le_trans hnow₁ hnow'⟩

/-- What holds of the events of a run from `s` to `s'`. -/
structure Causal (s : Sim) (turns : List (SimTurn T)) (s' : Sim) : Prop where
  future : ∀ e ∈ s'.queue, s'.now.fs ≤ e.time.fs
  /-- The time has not been turned back since any point of the run. -/
  now_le : ∀ pre post sₘ, turns = pre ++ post → after pre s = .ok sₘ → sₘ.now.fs ≤ s'.now.fs
  /-- Events are applied by time, and by the order of scheduling at one time. -/
  ordered : (allApplied turns s).Pairwise (·.before · = true)
  /-- What has been scheduled has been applied, or it is in the queue. -/
  conserved : (allPlanned turns s).Perm (allApplied turns s ++ s'.queue)
  /-- Events are numbered in the order of scheduling. -/
  numbered : (allPlanned turns s).map (·.seq) =
    List.range' s.nextSeq (allPlanned turns s).length
  /-- No event is scheduled twice, so none is applied twice, or applied and in the queue. -/
  nodup : (allPlanned turns s).Nodup
  refused_iff : ∀ time signal value, s'.schedule time signal value =
    .error (.eventInPast time s'.now) ↔ time.fs < s'.now.fs
  refused : ∀ t : SimTurn T, ∀ time signal value, t.op = .schedule time signal value →
    time.fs < s'.now.fs → s'.turn t = .ok s'

/-- **Causality**: in every run of a simulator that starts with nothing to come. -/
theorem causality {s s' : Sim} (hqueue : s.queue = []) {turns : List (SimTurn T)}
    (hrun : after turns s = .ok s') : Causal s turns s' := by
  have hstart := books_start hqueue
  obtain ⟨h, -⟩ := hstart.after turns [] [] s s' hrun
  rw [List.nil_append, List.nil_append] at h
  refine ⟨h.future, ?_, (List.pairwise_append.mp h.ordered).1, h.kept, h.numbered, ?_, ?_, ?_⟩
  · rintro pre post sₘ rfl hpre
    obtain ⟨sₘ', hpre', hpost⟩ := after_append_eq_ok.mp hrun
    obtain rfl := Except.ok.inj (hpre.symm.trans hpre')
    exact ((hstart.after pre [] [] s sₘ hpre).1.after post _ _ sₘ s' hpost).2
  · refine List.Nodup.of_map (·.seq) ?_
    rw [h.numbered]
    exact List.nodup_range'
  · intro time signal value
    rw [schedule]
    by_cases hpast : time.fs < s'.now.fs
    · simp [hpast]
    · simp [hpast]
  · intro t time signal value hop hpast
    rw [turn, hop]
    simp [Bench.host, schedule, SimTurn.on, Bench.onSim, hpast, Except.map, Except.toOption]

/-- The scheduler fails at the first of two changes of one time.  A third is scheduled for that time
before the second has been applied, and one for an earlier time is refused. -/
def halfApplied (idle watching : Mux SignalId CallbackHandle) :
    List (SimTurn ScriptedScheduler) :=
  let failing := ScriptedScheduler.failingAt [1] ⟨"", ""⟩
  [⟨idle, failing, #[], .addSignal "a" .zero⟩, ⟨idle, failing, #[], .addSignal "b" .zero⟩,
    ⟨idle, failing, #[], .context (.watch ⟨0⟩ .either ⟨1⟩)⟩,
    ⟨idle, failing, #[], .schedule ⟨5⟩ ⟨0⟩ .one⟩, ⟨idle, failing, #[], .schedule ⟨5⟩ ⟨1⟩ .one⟩,
    ⟨watching, failing, #[], .step (.recorded _)⟩, ⟨idle, failing, #[], .schedule ⟨4⟩ ⟨1⟩ .zero⟩,
    ⟨idle, failing, #[], .schedule ⟨5⟩ ⟨0⟩ .zero⟩, ⟨idle, failing, #[], .step (.recorded _)⟩]

theorem causality_halfApplied :
    ∃ (idle : Mux SignalId CallbackHandle) (watching : SimBench ScriptedScheduler) (s' : Sim),
      Mux.ofConfig { pool := { capacity := 1 } } [] = .ok idle ∧
      (⟨idle, initial, .failingAt [] ⟨"", ""⟩, #[]⟩ : SimBench ScriptedScheduler).watch ⟨0⟩ .either
        ⟨1⟩ = .done ⟨0, 0⟩ watching ∧
      initial.queue = [] ∧ after (halfApplied idle watching.mux) initial = .ok s' ∧
      (allApplied (halfApplied idle watching.mux) initial).map (·.seq) = [0, 1, 2] ∧
      Causal initial (halfApplied idle watching.mux) s' := by
  obtain ⟨idle, watching, s', hidle, hwatching, hrun, happlied⟩ :
      ∃ (idle : Mux SignalId CallbackHandle) (watching : SimBench ScriptedScheduler) (s' : Sim),
        Mux.ofConfig { pool := { capacity := 1 } } [] = .ok idle ∧
        (⟨idle, initial, .failingAt [] ⟨"", ""⟩, #[]⟩ : SimBench ScriptedScheduler).watch ⟨0⟩
          .either ⟨1⟩ = .done ⟨0, 0⟩ watching ∧
        after (halfApplied idle watching.mux) initial = .ok s' ∧
        (allApplied (halfApplied idle watching.mux) initial).map (·.seq) = [0, 1, 2] :=
    ⟨_, _, _, rfl, rfl, rfl, rfl⟩
  exact ⟨idle, watching, s', hidle, hwatching, rfl, hrun, happlied, causality rfl hrun⟩

end Sim

end EdgeWait
