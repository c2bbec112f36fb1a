/-
A clock wakes its waiters once per edge.

* `swings_clockValue` — a clock on a signal that is not high changes it with every edge;
* `wound_withClock` — its edges are all that comes on the signal, whatever comes on others;
* `clock_wakes` — a watch wakes its task at each edge that it is for, and so does a wait that is
  added again after each wake.

Design notes: a clock can stand still, with all edges at one time.  A watch is then told of all of
them in one step, but a wait that is added again is one step late, so time has to go by between the
edges.  The other events only have to be on signals that exist (`Sim.Grounded`): one that is not
stops the simulator before the clock has run down.
-/
import EdgeWait.Proofs.Clocking
import EdgeWait.Proofs.Ticking

namespace EdgeWait

open Sim

/-! ### The changes that a clock makes -/

/-- **Every edge of a clock is a change**, if the first of them is. -/
theorem swings_clockValue (n : Nat) :
    ∀ (k : Nat) (v : Logic), clockValue k ≠ v →
      Swings v ((List.range' k n).map clockValue) := by
  induction n with
  | zero => exact fun _ v _ => .nil v
  | succ n ih =>
    intro k v hdiffers
    have hknown : (clockValue k).isKnown = true := by
      rw [clockValue]
      split <;> rfl
    have hnext : clockValue (k + 1) ≠ clockValue k := by
      rcases Nat.mod_two_eq_zero_or_one k with hk | hk
      · rw [clockValue, clockValue, if_pos (by omega), if_neg (by omega)]
        decide
      · rw [clockValue, clockValue, if_neg (by omega), if_pos (by omega)]
        decide
    exact .cons hdiffers hknown (ih (k + 1) _ hnext)

/-- The number of edges of `n` cycles of a clock that are such edges. -/
def Edge.tickCount (n : Nat) : Edge → Nat
  | rising => n
  | falling => n
  | either => 2 * n

theorem Edge.length_ticks (edge : Edge) (n : Nat) : (edge.ticks n).length = edge.tickCount n := by
  cases edge <;> simp [ticks, tickCount]

theorem Edge.le_of_mem_ticks {edge : Edge} {n k : Nat} (h : k ∈ edge.ticks n) : k ≤ 2 * n := by
  rw [← filter_clockValue] at h
  have hrange := List.mem_range'_1.mp (List.mem_of_mem_filter h)
  omega

namespace Bench

variable {T : Type} [Scheduler T] {b₀ b : SimBench (SchedulerRecord T)} {signal : SignalId}
  {half : SimTime} {n : Nat} {edge : Edge} {task : TaskId}

/-- What comes of `n` cycles of a clock, with which the simulator of `b` has become `s`: it wakes a
task that watches the signal, and one that waits for it again and again. -/
structure Clockwork (b : SimBench (SchedulerRecord T)) (signal : SignalId) (half : SimTime)
    (n : Nat) (edge : Edge) (task : TaskId) (s : Sim) : Prop where
  watched : ∃ key b₁, (b.onSim fun _ => s).watch signal edge task = .done key b₁ ∧
    ∀ orders, ∃ time b₂, b₁.run orders = .done time b₂ ∧
      b₁.callsFor task b₂ = List.replicate (edge.tickCount n) [task]
  /-- With time between the edges, the task is woken at these, and at no other times. -/
  rearmed : 0 < half.fs → ∃ b₁, (b.onSim fun _ => s).addWait signal edge task = .ok b₁ ∧
    ∀ orders, ∃ times b₂, Rearms ⟨signal, edge, task⟩ orders b₁ times b₂ ∧
      times.length = edge.tickCount n ∧
      times.map (·.fs.toNat) =
        (edge.ticks n).map (fun k => b.native.now.fs.toNat + k * half.fs.toNat) ∧
      ∀ times' b', Rearms ⟨signal, edge, task⟩ orders b₁ times' b' → times' = times

/-- The edges of a clock have been scheduled, and the task is not registered. -/
structure Wound (b : SimBench (SchedulerRecord T)) (signal : SignalId) (half : SimTime) (n : Nat)
    (task : TaskId) (c : Sim) : Prop where
  tends : ∃ L, Tends task signal c [] (b.onSim fun _ => b.native.withClock signal half n) L
  swings : c.SwingsOn signal
  edges : c.queue.filter (·.signal = signal) = b.native.clockEdges signal half 1 (2 * n)

/-- **The edges of a clock** are all that comes on the signal. -/
theorem wound_withClock (hnew : New b₀) (hqueue : b₀.native.queue = []) {ops : List HostOp}
    (hrun : hostAll ops b₀ = .ok b) (hlive : b.mux.isPoisoned = false)
    (hfree : 0 < b.mux.subscriptions.pool.available) (hscheduler : NeverFails b.scheduler)
    {before : Logic} (hbefore : b.native.value? signal = some before) (hlow : before ≠ .one)
    (hgrounded : b.native.Grounded) (hquiet : ∀ e ∈ b.native.queue, e.signal ≠ signal)
    (hothers : ∀ e ∈ b.mux.subscriptions.arena.toList, task ∉ e.2.tasks)
    (hfits : b.native.now.fs.toNat + 2 * n * half.fs.toNat < 2 ^ 64) :
    ∃ c, Wound b signal half n task c := by
  obtain ⟨accepted, applied, hbooks⟩ := hostAll_books ops [] [] b₀ b (books_start hqueue) hrun
  have haside : Aside b (b.onSim fun _ => b.native.withClock signal half n) :=
    aside_onSim ⟨⟨rfl, rfl, rfl, rfl⟩, rfl⟩
  obtain ⟨c, L, htracked⟩ := (hostAll_attended ops b₀ b hnew.attended hrun).aside haside
  have hworld := htracked.extra.1.world
  have hedges : c.queue.filter (·.signal = signal) =
      b.native.clockEdges signal half 1 (2 * n) := by
    rw [← hworld.queue]
    exact filter_queue_withClock hbooks.timely.ordered
      (fun e he => hbooks.seq_lt (List.mem_append_right _ he)) hquiet hfits
  have hnone : ∀ e ∈ L, task ∉ e.registration.tasks := fun e he =>
    hothers (e.key, e.registration)
      (htracked.roster.toList_perm.mem_iff.mpr (List.mem_map_of_mem he))
  -- every live registration holds an id, so there are fewer of them than ids
  have hids : b.mux.subscriptions.pool.available + L.length =
      b.mux.subscriptions.pool.capacity := htracked.roster.available_add_length
  have hroom : L.length < b.mux.subscriptions.pool.capacity := by omega
  have hhas : b.native.Has signal := by
    obtain ⟨found, hfound, -⟩ := Option.map_eq_some_iff.mp hbefore
    exact (Array.getElem?_eq_some_iff.mp hfound).1
  refine ⟨c, ⟨L, ⟨⟨hlive, hscheduler⟩, htracked, ?_, by simp, ?_⟩⟩, ⟨?_, before, ?_, ?_⟩, hedges⟩
  · rw [List.filter_eq_nil_iff.mpr fun e he => by simpa using hnone e he]
    rfl
  · exact Nat.lt_of_le_of_lt (List.length_filter_le _ L) hroom
  · intro e he
    rw [← hworld.queue] at he
    rw [Has, ← hworld.signals]
    exact hgrounded.withClock hhas n e he
  · rw [← htracked.value?_eq]
    exact hbefore
  · rw [valuesOn, hedges, clockEdges, List.map_map]
    exact swings_clockValue _ 1 before (Ne.symm hlow)

variable {c : Sim}

/-- A demand that lasts is told of each edge that it is for. -/
theorem Wound.told_eq (h : Wound b signal half n task c) (edge : Edge) :
    Demand.told (valuesOn signal c.queue) [⟨signal, edge, [task], .persistent⟩] =
      List.replicate (edge.tickCount n) [task] := by
  have hcount : (valuesOn signal c.queue).countP (fun v => edge.condition.accepts v) =
      edge.tickCount n := by
    rw [valuesOn, h.edges, List.countP_map, List.countP_eq_length_filter, ← edge.length_ticks,
      ← List.length_map (f := b.native.clockEdge signal half), ← filter_clockEdges]
    rfl
  rw [Demand.told_of_persistent rfl, hcount]

/-- A wait is for edges at so many half periods from now. -/
theorem Wound.timesFor_eq (h : Wound b signal half n task c) (edge : Edge)
    (hfits : b.native.now.fs.toNat + 2 * n * half.fs.toNat < 2 ^ 64) :
    (timesFor ⟨signal, edge, task⟩ c.queue).map (·.fs.toNat) =
      (edge.ticks n).map fun k => b.native.now.fs.toNat + k * half.fs.toNat := by
  rw [timesFor, h.edges, filter_clockEdges, List.map_map, List.map_map]
  exact List.map_congr_left fun k hk => toNat_time_clockEdge (Edge.le_of_mem_ticks hk) hfits

/-- **A clock wakes its waiters once per edge**: on a signal that is not high, and for which nothing
else has been scheduled, in every state that a context and its simulator can reach where a task can
be registered and is not, as long as other events are on signals that exist as well. -/
theorem clock_wakes (hnew : New b₀) (hqueue : b₀.native.queue = []) {ops : List HostOp}
    (hrun : hostAll ops b₀ = .ok b) (hlive : b.mux.isPoisoned = false)
    (hpending : b.mux.pending.isEmpty = true) (hfree : 0 < b.mux.subscriptions.pool.available)
    (hscheduler : NeverFails b.scheduler) {before : Logic}
    (hbefore : b.native.value? signal = some before) (hlow : before ≠ .one)
    (hgrounded : b.native.Grounded) (hquiet : ∀ e ∈ b.native.queue, e.signal ≠ signal)
    (hothers : ∀ e ∈ b.mux.subscriptions.arena.toList, task ∉ e.2.tasks) {cycles : UInt32}
    (hfits : b.native.now.fs.toNat + 2 * cycles.toNat * half.fs.toNat < 2 ^ 64) (edge : Edge) :
    ∃ s, b.native.scheduleClock signal half cycles = .done () s ∧
      Clockwork b signal half cycles.toNat edge task s := by
  obtain ⟨c, hwound⟩ := wound_withClock hnew hqueue hrun hlive hfree hscheduler hbefore hlow
    hgrounded hquiet hothers hfits
  obtain ⟨L, htends⟩ := hwound.tends
  refine ⟨_, scheduleClock_done hfits, ?_, fun hhalf => ?_⟩
  · obtain ⟨key, b₁, L₁, heq, hkeeps, htends₁, -⟩ := watch_tends htends edge
    refine ⟨key, b₁, heq, fun orders => ?_⟩
    obtain ⟨b₂, c₂, hsteps, hticks⟩ := runSteps_ticks _ orders htends₁ hwound.swings
      (hkeeps.pending ▸ hpending) (Nat.le_of_eq (congrArg _ htends₁.tracked.queue_eq.symm))
    have hwakes := hticks.wakes
    rw [hwound.told_eq] at hwakes
    refine ⟨_, _, by rw [run, hsteps]; rfl, ?_⟩
    exact hwakes.callsFor_eq
  · obtain ⟨b₁, hadded, harmed⟩ := Tends.addWait (w := ⟨signal, edge, task⟩) htends hpending
    refine ⟨b₁, hadded, fun orders => ?_⟩
    have hapart : (c.queue.filter (·.signal = signal)).Pairwise (·.time.fs < ·.time.fs) := by
      rw [hwound.edges]
      exact pairwise_time_clockEdges hhalf hfits
    obtain ⟨b₂, hrearms⟩ := rearms_of_armed orders harmed hwound.swings hapart
    have htimes := hwound.timesFor_eq edge hfits
    refine ⟨_, b₂, hrearms, ?_, htimes, fun times' b' h' => (hrearms.unique h').1⟩
    rw [← List.length_map (f := fun t : SimTime => t.fs.toNat), htimes, List.length_map,
      edge.length_ticks]

/-- A clock signal that is not driven yet is watched by task 7, and task 8 has waited for another
signal, which changes again at the first edge and between the first two. -/
def besideClock : List HostOp :=
  [.addSignal "clk" .x, .addSignal "ready" .zero, .context (.watch ⟨0⟩ .either ⟨7⟩),
    .context (.addWait ⟨1⟩ .rising ⟨8⟩), .schedule ⟨3⟩ ⟨1⟩ .one, .step (.recorded _),
    .schedule ⟨8⟩ ⟨1⟩ .zero, .schedule ⟨9⟩ ⟨1⟩ .one]

/-- Two cycles from time 3 on, with one id left: they fall at 13 and at 23. -/
theorem clock_wakes_besideClock :
    ∃ (b₀ b : SimBench (SchedulerRecord ScriptedScheduler)) (s : Sim), New b₀ ∧
      hostAll besideClock b₀ = .ok b ∧ b.mux.subscriptions.pool.available = 1 ∧
      b.native.scheduleClock ⟨0⟩ ⟨5⟩ 2 = .done () s ∧
      Clockwork b ⟨0⟩ ⟨5⟩ 2 .falling ⟨1⟩ s ∧
      ∃ b₁, (b.onSim fun _ => s).addWait ⟨0⟩ .falling ⟨1⟩ = .ok b₁ ∧
        ∃ times b₂, Rearms ⟨⟨0⟩, .falling, ⟨1⟩⟩ (fun _ => .recorded _) b₁ times b₂ ∧
          times.map (·.fs.toNat) = [13, 23] := by
  obtain ⟨b₀, b, t, hnew, hqueue, hrun, hlive, hpending, hfree, hscheduler, hsilent, hbefore,
    hevents, hsize, hothers, hnow⟩ :
      ∃ (b₀ b : SimBench (SchedulerRecord ScriptedScheduler)) (t : ScriptedScheduler), New b₀ ∧
        b₀.native.queue = [] ∧ hostAll besideClock b₀ = .ok b ∧ b.mux.isPoisoned = false ∧
        b.mux.pending.isEmpty = true ∧ b.mux.subscriptions.pool.available = 1 ∧
        b.scheduler = ⟨t, [.resumed [⟨8⟩] (.ok ())]⟩ ∧ (∀ calls, t.answer calls = .ok ()) ∧
        b.native.value? ⟨0⟩ = some .x ∧ b.native.queue.map (·.signal) = [⟨1⟩, ⟨1⟩] ∧
        b.native.signals.size = 2 ∧ b.mux.subscriptions.arena.toList.map (·.2.tasks) = [[⟨7⟩]] ∧ b.native.now = ⟨3⟩ :=
    ⟨_, _, _, ⟨{ pool := { capacity := 2 } }, [], _, .initial, ⟨⟨fun _ => .ok (), [], 0⟩, []⟩,
      rfl, ⟨rfl, rfl⟩, rfl, rfl, rfl, rfl⟩, rfl, rfl, rfl, rfl, rfl, rfl, fun _ => rfl, rfl, rfl,
      rfl, rfl, rfl⟩
  have hready : ∀ e ∈ b.native.queue, e.signal = ⟨1⟩ := by
    intro e he
    have hsignal : e.signal ∈ b.native.queue.map (·.signal) := List.mem_map_of_mem he
    simpa [hevents] using hsignal
  have hgrounded : b.native.Grounded := by
    intro e he
    rw [hready e he, Has, hsize]
    decide
  have hquiet : ∀ e ∈ b.native.queue, e.signal ≠ ⟨0⟩ := by
    intro e he
    rw [hready e he]
    decide
  have hnobody : ∀ e ∈ b.mux.subscriptions.arena.toList, (⟨1⟩ : TaskId) ∉ e.2.tasks := by
    intro e he hone
    have htasks : e.2.tasks ∈ b.mux.subscriptions.arena.toList.map (·.2.tasks) :=
      List.mem_map_of_mem he
    rw [hothers, List.mem_singleton] at htasks
    rw [htasks] at hone
    exact absurd hone (by decide)
  have hfits : b.native.now.fs.toNat + 2 * (2 : UInt32).toNat * (5 : UInt64).toNat < 2 ^ 64 := by
    rw [hnow]
    decide
  obtain ⟨s, hclock, hwork⟩ := clock_wakes hnew hqueue hrun hlive hpending (by omega)
    (hscheduler ▸ (neverFails_of_answer hsilent).recorded _) hbefore (by decide) hgrounded hquiet hnobody
    (show _ + _ * (⟨5⟩ : SimTime).fs.toNat < _ from hfits) .falling
  obtain ⟨b₁, hadded, hrearms⟩ := hwork.rearmed (by decide)
  obtain ⟨times, b₂, hsteps, -, htimes, -⟩ := hrearms fun _ => .recorded _
  rw [hnow] at htimes
  exact ⟨b₀, b, s, hnew, hrun, hfree, hclock, hwork, b₁, hadded, times, b₂, hsteps, htimes⟩

end Bench

end EdgeWait
