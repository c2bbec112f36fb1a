/-
Hosts that schedule nothing on signals that do not exist.

An event on a signal that does not exist stops the simulator when its turn comes, and not before.
When all events in the queue are on signals that exist, and the host schedules changes of no others,
it never comes to that.

* `Grounds.schedule`, `Grounds.scheduleEdges` — what is scheduled keeps the queue so (`Grounds`);
* `host_narrows` — nothing else adds to the queue;
* `grounds_of_host` — so an operation of the host keeps it so;
* `Footed.of_host`, `Footed.host_fault` — and stops for nothing but a wait that is recorded twice, or
  a clock that goes on for too long, when the context has its simulator to itself (`Footed`);
* `Footed.upholds` — so it is when the outcome is told in more detail.

Design notes: signals are named by their places in a table, which only grows.  So a number goes
along, of signals that the table has at least.
-/
import EdgeWait.Proofs.Causality
import EdgeWait.Proofs.Sharing

namespace EdgeWait

open Sim

/-! ### Queues -/

namespace Sim

/-- There are at least `n` signals, and all events in the queue are on signals that exist. -/
structure Grounds (n : Nat) (s : Sim) : Prop where
  grounded : s.Grounded
  size : n ≤ s.signals.size

variable {n : Nat} {s s' : Sim} {signal : SignalId}

theorem Grounds.has (h : s.Grounds n) (hsignal : signal.raw.toNat < n) : s.Has signal :=
  Nat.lt_of_lt_of_le hsignal h.size

theorem Grounds.of_narrows (h : s.Grounds n) (hnarrows : Narrows s s') : s'.Grounds n :=
  ⟨h.grounded.of_narrows hnarrows, hnarrows.size ▸ h.size⟩

/-- A table of signals that grows keeps those that it has. -/
theorem Grounds.addSignal (h : s.Grounds n) {name : String} {initial : Logic} {id : SignalId}
    (hadd : s.addSignal name initial = .ok (id, s')) : s'.Grounds n := by
  rw [Sim.addSignal] at hadd
  split at hadd
  · cases hadd
  · obtain ⟨-, rfl⟩ := Prod.mk.inj (Except.ok.inj hadd)
    have hgrown : s.signals.size ≤ (s.signals.push ⟨name, initial⟩).size := by
      rw [Array.size_push]
      exact Nat.le_succ _
    exact ⟨fun e he => Nat.lt_of_lt_of_le (h.grounded e he) hgrown, Nat.le_trans h.size hgrown⟩

theorem Grounds.schedule (h : s.Grounds n) (hsignal : signal.raw.toNat < n) {time : SimTime}
    {value : Logic} (hschedule : s.schedule time signal value = .ok s') : s'.Grounds n := by
  rw [Sim.schedule] at hschedule
  split at hschedule
  · cases hschedule
  · obtain rfl := Except.ok.inj hschedule
    refine ⟨fun e he => ?_, h.size⟩
    rcases List.mem_cons.mp ((enqueue_perm _ _).mem_iff.mp he) with rfl | he
    · exact h.has hsignal
    · exact h.grounded e he

/-- The edges of a clock are scheduled one after another, as far as they are. -/
theorem Grounds.scheduleEdges (hsignal : signal.raw.toNat < n) (half : SimTime) (edges : Nat) :
    ∀ (k : Nat) (s s' : Sim), s.Grounds n →
      (Sim.scheduleEdges signal half k edges s).final = .ok s' → s'.Grounds n := by
  induction edges with
  | zero =>
    rintro k s s' h ⟨⟩
    exact h
  | succ edges ih =>
    intro k s s' h hfinal
    rw [Sim.scheduleEdges] at hfinal
    cases htime : s.now.later half (UInt64.ofNat k) with
    | error f =>
      rw [htime] at hfinal
      cases hfinal
    | ok time =>
      simp only [htime] at hfinal
      cases hone : s.schedule time signal (clockValue k) with
      | error e =>
        rw [hone] at hfinal
        obtain rfl := Except.ok.inj hfinal
        exact h
      | ok s₁ =>
        rw [hone] at hfinal
        exact ih (k + 1) s₁ s' (h.schedule hsignal hone) hfinal

end Sim

/-! ### Operations of the host -/

/-- As far as the operation schedules changes, they are of the first `n` signals. -/
def HostOp.Names (n : Nat) : HostOp → Prop
  | schedule _ signal _ => signal.raw.toNat < n
  | scheduleClock signal _ _ => signal.raw.toNat < n
  | _ => True

namespace Bench

variable {T : Type} [Scheduler T] {n : Nat} {b b' : SimBench T} {op : HostOp}

/-- Whatever is done in a step, it narrows the queue. -/
private theorem traced_anyhow : Traced (T := T) Fault.Any (fun _ => True) (fun _ => True)
    fun _ _ _ => True where
  weaken := id
  refl := fun _ => trivial
  trans := fun _ _ => trivial
  flush := fun _ _ => leads_of_upholds (Outcome.upholds_of_final (fun _ _ => ⟨trivial, trivial⟩)
    fun _ _ => trivial)
  moved := fun _ _ => ⟨trivial, trivial⟩
  event := fun _ _ _ _ => leads_of_upholds (Outcome.upholds_of_final
    (fun _ _ => ⟨trivial, trivial⟩) fun _ _ => trivial)
  counted := fun _ => ⟨trivial, trivial⟩
  finished := fun _ _ _ _ => ⟨trivial, trivial⟩

/-- **Unless the host prepares events**, those to come are the last of those that there were. -/
theorem host_narrows (hop : op.prepares = false) (hb : b.host op = .ok b') :
    Narrows b.native b'.native := by
  cases hdrives : op.drives with
  | true => exact (traced_anyhow.narrowed.drives trivial hdrives hb).2.2
  | false =>
    cases op with
    | context op => exact ((perform_respected respected_sameCourse b op).final hb).narrows
    | step | run | runUntil => cases hdrives
    | addSignal | schedule | scheduleClock => cases hop

/-- **An operation of the host** that schedules changes of existing signals only. -/
theorem grounds_of_host (h : b.native.Grounds n) (hop : op.Names n)
    (hb : b.host op = .ok b') : b'.native.Grounds n := by
  cases hprepares : op.prepares with
  | false => exact h.of_narrows (host_narrows hprepares hb)
  | true =>
    cases op with
    | addSignal name initial =>
      obtain rfl := Except.ok.inj hb
      show Grounds n (Option.getD _ b.native)
      cases hadd : b.native.addSignal name initial with
      | error e => exact h
      | ok answer => exact h.addSignal hadd
    | schedule time signal value =>
      obtain rfl := Except.ok.inj hb
      show Grounds n (Option.getD _ b.native)
      cases hschedule : b.native.schedule time signal value with
      | error e => exact h
      | ok s => exact h.schedule hop hschedule
    | scheduleClock signal half cycles =>
      rw [Bench.host] at hb
      cases hedges : (b.native.scheduleClock signal half cycles).final with
      | error f =>
        rw [hedges] at hb
        cases hb
      | ok s =>
        rw [hedges] at hb
        obtain rfl := Except.ok.inj hb
        exact Grounds.scheduleEdges hop half _ _ _ _ h hedges
    | _ => cases hprepares

/-! ### Contexts that have a simulator to themselves -/

omit [Scheduler T] in
/-- A context whose roster is served by the simulator is the only one there. -/
theorem guest_alone {I : List SimHolding → Arena SignalId → Sim → List RegistrationKey → Prop}
    {L : List SimHolding} (h : b.Tracked I L)
    (hserves : Serves L b.mux.subscriptions.arena b.native b.log.issued) :
    Guest [] b.mux.subscriptions.pool.capacity b where
  room := by simpa using h.roster.pool_valid.capacity_lt
  tracked := ⟨L, h.roster, fun _ => ⟨hserves.toCovers, hserves.arena_live, hserves.nextOrder⟩⟩
  capacity := rfl

/-- A context has a simulator to itself, where all events in the queue are on signals that exist,
and at least `n` of these. -/
structure Footed (n : Nat) (b : SimBench T) : Prop where
  guest : ∃ capacity, Guest [] capacity b
  grounds : b.native.Grounds n

theorem Footed.of_host (h : Footed n b) (op : HostOp) (hop : op.Names n)
    (hb : b.host op = .ok b') : Footed n b' := by
  obtain ⟨capacity, hguest⟩ := h.guest
  exact ⟨⟨capacity, hguest.host hb⟩, grounds_of_host h.grounds hop hb⟩

/-- **There is no event without a signal** that could stop an operation of the host. -/
theorem Footed.host_fault (h : Footed n b) {f : Fault} (hf : b.host op = .error f) :
    f.IsDuplicate ∨ f.IsOverflow ∧ op.prepares = true := by
  obtain ⟨capacity, hguest⟩ := h.guest
  rcases hguest.host_fault hf with ⟨signal, edge, task, -, -, rfl⟩ |
    ⟨signal, half, cycles, rfl, hoverflow⟩ | ⟨-, hmisses⟩
  · exact .inl trivial
  · exact .inr ⟨hoverflow, rfl⟩
  · exact absurd hmisses h.grounds.grounded.not_misses

/-- What an operation of the host leaves, however its outcome is told. -/
theorem Footed.upholds {ε α : Type} {o : Outcome ε (SimBench T) α} (h : Footed n b) (op : HostOp)
    (hop : op.Names n) (hprepares : op.prepares = false) (heq : b.host op = o.final) :
    o.Upholds Fault.IsDuplicate (Footed n) := by
  refine Outcome.upholds_of_final (fun b' hb => h.of_host op hop (heq.trans hb)) fun f hf => ?_
  subst hf
  rcases h.host_fault heq with hduplicate | ⟨-, hprepared⟩
  · exact hduplicate
  · rw [hprepares] at hprepared
    cases hprepared

/-! ### What is asked for one by one -/

theorem Footed.addWait {ε : Type} (h : Footed n b) (signal : SignalId) (edge : Edge)
    (task : TaskId) :
    (Outcome.ofExcept ((b.addWait signal edge task).map fun b => ((), b)) :
      Outcome ε (SimBench T) Unit).Upholds Fault.IsDuplicate (Footed n) := by
  refine h.upholds (.context (.addWait signal edge task)) trivial rfl ?_
  rw [host, perform]
  cases b.addWait signal edge task <;> rfl

theorem Footed.flush (h : Footed n b) (order : VisitOrder SignalId) :
    (b.flush order).Upholds Fault.IsDuplicate (Footed n) := by
  refine h.upholds (.context (.flush order)) trivial rfl ?_
  rw [host, perform, final_andThen_done]

theorem Footed.waitNow (h : Footed n b) (signal : SignalId) (edge : Edge) (task : TaskId) :
    (b.waitNow signal edge task).Upholds Fault.IsDuplicate (Footed n) := by
  refine h.upholds (.context (.waitNow signal edge task)) trivial rfl ?_
  rw [host, perform, final_andThen_done]

theorem Footed.watch (h : Footed n b) (signal : SignalId) (edge : Edge) (task : TaskId) :
    (b.watch signal edge task).Upholds Fault.IsDuplicate (Footed n) := by
  refine h.upholds (.context (.watch signal edge task)) trivial rfl ?_
  rw [host, perform, final_andThen_done]

theorem Footed.cancel {ε : Type} (h : Footed n b) (key : RegistrationKey) :
    (Outcome.ofExcept (b.cancel key) : Outcome ε (SimBench T) Bool).Upholds Fault.IsDuplicate
      (Footed n) := by
  refine h.upholds (.context (.cancel key)) trivial rfl ?_
  rw [host, perform]
  cases b.cancel key <;> rfl

theorem Footed.shutdown {ε : Type} (h : Footed n b) :
    (Outcome.ofExcept b.shutdown : Outcome ε (SimBench T) Nat).Upholds Fault.IsDuplicate
      (Footed n) := by
  refine h.upholds (.context .shutdown) trivial rfl ?_
  rw [host, perform]
  cases b.shutdown <;> rfl

theorem Footed.schedule (h : Footed n b) {signal : SignalId} (hsignal : signal.raw.toNat < n)
    (time : SimTime) (value : Logic) :
    Footed n (b.onSim fun s => (s.schedule time signal value).toOption.getD s) :=
  h.of_host (.schedule time signal value) hsignal rfl

theorem Footed.step (h : Footed n b) (order : VisitOrder SignalId) :
    (b.step order).Upholds Fault.IsDuplicate (Footed n) :=
  h.upholds (.step order) trivial rfl rfl

theorem Footed.run (h : Footed n b) (orders : Nat → VisitOrder SignalId) :
    (b.run orders).Upholds Fault.IsDuplicate (Footed n) :=
  h.upholds (.run orders) trivial rfl rfl

theorem Footed.runUntil (h : Footed n b) (orders : Nat → VisitOrder SignalId) (limit : SimTime) :
    (b.runUntil orders limit).Upholds Fault.IsDuplicate (Footed n) :=
  h.upholds (.runUntil orders limit) trivial rfl rfl

end Bench

end EdgeWait
