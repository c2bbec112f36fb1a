/-
A clock is scheduled as a whole, or it leaves the range of times.

* `SimTime.later_of_le` — a time that does not fit its word is the fault of the product or of the
  sum, whichever is found first;
* `scheduleEdges_fault` — the first edge that does not fit decides how the scheduling of a clock
  stops (`Sim.FirstBeyond`);
* `clock_exact` — so in every state that a simulator can reach a clock is scheduled up to its last
  edge, or stopped by an overflow, and never refused.

Design notes: times do not fall from one edge to the next, so that all edges fit is a matter of the
last of them.  Numbers of events have no bound here; that they stay within a word as long as few
events have been scheduled is part of what is proved.
-/
import EdgeWait.Proofs.Clocking
import Mathlib.Data.Nat.Find

namespace EdgeWait

open Sim

/-! ### Times that do not fit their word -/

/-- The fault of a time so many femtoseconds after another: the product is formed first. -/
def SimTime.faultBeyond (product : Nat) : Fault :=
  if 2 ^ 64 ≤ product then .mulOverflow else .addOverflow

/-- So many periods later is no time, once it leaves its word. -/
theorem SimTime.later_of_le {t period : SimTime} {k : Nat} (hk : k < 2 ^ 64)
    (h : 2 ^ 64 ≤ t.fs.toNat + k * period.fs.toNat) :
    t.later period (UInt64.ofNat k) = .error (faultBeyond (k * period.fs.toNat)) := by
  have hword : (UInt64.ofNat k).toNat = k := UInt64.toNat_ofNat_of_lt' hk
  rw [later, mulWord, hword, Nat.mul_comm]
  by_cases hproduct : k * period.fs.toNat < UInt64.size
  · have hvalue : (period.fs * UInt64.ofNat k).toNat = k * period.fs.toNat := by
      rw [UInt64.toNat_mul, hword, Nat.mul_comm, Nat.mod_eq_of_lt hproduct]
    have hsum : ¬ t.fs.toNat + (period.fs * UInt64.ofNat k).toNat < UInt64.size := by
      rw [hvalue]
      exact Nat.not_lt.mpr h
    have hsmall : ¬ 2 ^ 64 ≤ k * period.fs.toNat := Nat.not_le.mpr hproduct
    rw [if_pos hproduct, faultBeyond, if_neg hsmall]
    show (do return ⟨← addWord t.fs (period.fs * UInt64.ofNat k)⟩ : Except Fault SimTime) = _
    rw [addWord, if_neg hsum]
    rfl
  · have hlarge : 2 ^ 64 ≤ k * period.fs.toNat := Nat.not_lt.mp hproduct
    rw [if_neg hproduct, faultBeyond, if_pos hlarge]
    rfl

namespace Sim

variable {s : Sim} {signal : SignalId} {half : SimTime}

/-- Of the edges of a clock that is scheduled on `s`, the `k`-th is the first whose time does not
fit its word. -/
structure FirstBeyond (s : Sim) (half : SimTime) (k : Nat) : Prop where
  beyond : 2 ^ 64 ≤ s.now.fs.toNat + k * half.fs.toNat
  fits : ∀ i < k, s.now.fs.toNat + i * half.fs.toNat < 2 ^ 64

theorem FirstBeyond.pos {k : Nat} (h : FirstBeyond s half k) : 0 < k := by
  have hnow := s.now.fs.toNat_lt
  refine Nat.pos_of_ne_zero ?_
  rintro rfl
  have hbeyond := h.beyond
  omega

/-- If the last edge does not fit, there is a first one that does not. -/
theorem exists_firstBeyond {n : Nat} (h : 2 ^ 64 ≤ s.now.fs.toNat + n * half.fs.toNat) :
    ∃ k ≤ n, FirstBeyond s half k := by
  have hsome : ∃ k, 2 ^ 64 ≤ s.now.fs.toNat + k * half.fs.toNat := ⟨n, h⟩
  refine ⟨Nat.find hsome, Nat.find_min' hsome h, Nat.find_spec hsome, fun i hi => ?_⟩
  exact Nat.not_le.mp (Nat.find_min hsome hi)

/-- **The first edge that does not fit** stops the scheduling of a clock. -/
theorem scheduleEdges_fault {last : Nat} (hfirst : FirstBeyond s half last)
    (hlast : last < 2 ^ 64) (n : Nat) :
    ∀ (k : Nat) (t : Sim), t.now = s.now → k ≤ last → last < k + n →
      scheduleEdges signal half k n t =
        .fault (SimTime.faultBeyond (last * half.fs.toNat)) := by
  induction n with
  | zero => exact fun k t _ _ hlt => by omega
  | succ n ih =>
    intro k t hnow hle hlt
    rcases Nat.lt_or_eq_of_le hle with hbefore | rfl
    · rw [scheduleEdges_succ hnow (by omega) (hfirst.fits k hbefore)]
      exact ih (k + 1) _ hnow hbefore (by omega)
    · have htime := SimTime.later_of_le hlast hfirst.beyond
      rw [← hnow] at htime
      rw [scheduleEdges, htime]

/-- **A clock whose last edge does not fit its word** is stopped by an overflow. -/
theorem scheduleClock_fault {cycles : UInt32}
    (hbeyond : 2 ^ 64 ≤ s.now.fs.toNat + 2 * cycles.toNat * half.fs.toNat) :
    ∃ k ≤ 2 * cycles.toNat, FirstBeyond s half k ∧
      s.scheduleClock signal half cycles =
        .fault (SimTime.faultBeyond (k * half.fs.toNat)) := by
  have hcycles : cycles.toNat < 2 ^ 32 := cycles.toNat_lt
  obtain ⟨k, hle, hfirst⟩ := exists_firstBeyond hbeyond
  exact ⟨k, hle, hfirst, scheduleEdges_fault hfirst (by omega) _ 1 s rfl hfirst.pos (by omega)⟩

/-! ### What a clock adds -/

/-- From `s` to `s'` the edges of a clock have been scheduled, and nothing else has been done. -/
structure AddsClock (s : Sim) (signal : SignalId) (half : SimTime) (cycles : Nat) (s' : Sim) :
    Prop where
  /-- The `k`-th edge comes `k` half periods from now; the odd ones rise, and the even ones fall.
  They are numbered one after another. -/
  gained : ∃ edges : List Event, s'.queue.Perm (edges ++ s.queue) ∧ edges.length = 2 * cycles ∧
    ∀ k, 1 ≤ k → k ≤ 2 * cycles → ∃ e, edges[k - 1]? = some e ∧ e.signal = signal ∧
      e.time.fs.toNat = s.now.fs.toNat + k * half.fs.toNat ∧
      e.value = (if k % 2 = 1 then Logic.one else .zero) ∧ e.seq = s.nextSeq + (k - 1)
  ordered : s'.queue.Pairwise (·.before · = true)
  unchanged : s' = { s with queue := s'.queue, nextSeq := s.nextSeq + 2 * cycles }

theorem addsClock_withClock {n : Nat} (hqueue : s.queue.Pairwise (·.before · = true))
    (hseq : ∀ e ∈ s.queue, e.seq < s.nextSeq)
    (hfits : s.now.fs.toNat + 2 * n * half.fs.toNat < 2 ^ 64) :
    AddsClock s signal half n (s.withClock signal half n) := by
  refine ⟨⟨s.clockEdges signal half 1 (2 * n), enqueueAll_perm _ _, by simp [clockEdges], ?_⟩,
    pairwise_queue_withClock hqueue hseq, rfl⟩
  intro k hpos hle
  refine ⟨s.clockEdge signal half k, ?_, rfl, toNat_time_clockEdge hle hfits, rfl,
    Nat.add_sub_assoc hpos _⟩
  have hplace : (List.range' 1 (2 * n))[k - 1]? = some k := by
    rw [List.getElem?_range' (by omega)]
    congr 1
    omega
  rw [clockEdges, List.getElem?_map, hplace]
  rfl

/-! ### Clocks on reachable simulators -/

variable {T : Type} [Scheduler T]

/-- How the scheduling of a clock ends: with all edges, or with an overflow. -/
structure ClockExact (s : Sim) (signal : SignalId) (half : SimTime) (cycles : UInt32) : Prop where
  stops_iff : (∃ f, s.scheduleClock signal half cycles = .fault f) ↔
    0 < cycles.toNat ∧ 2 ^ 64 ≤ s.now.fs.toNat + 2 * cycles.toNat * half.fs.toNat
  /-- It is stopped by an overflow, that of the first edge that does not fit its word. -/
  stops : ∀ f, s.scheduleClock signal half cycles = .fault f →
    ∃ k ≤ 2 * cycles.toNat, FirstBeyond s half k ∧
      f = if 2 ^ 64 ≤ k * half.fs.toNat then .mulOverflow else .addOverflow
  scheduled : ¬ (0 < cycles.toNat ∧
      2 ^ 64 ≤ s.now.fs.toNat + 2 * cycles.toNat * half.fs.toNat) →
    ∃ s', s.scheduleClock signal half cycles = .done () s' ∧
      AddsClock s signal half cycles.toNat s' ∧ s'.nextSeq < 2 ^ 64
  never_refused : ∀ e s', s.scheduleClock signal half cycles ≠ .failed e s'

/-- **A clock is scheduled as a whole or stopped by an overflow**, in every state that a simulator
can reach and in which fewer than `2 ^ 63` events have been scheduled. -/
theorem clock_exact {turns : List (SimTurn T)} (hrun : after turns initial = .ok s)
    (hcount : (allPlanned turns initial).length < 2 ^ 63) (signal : SignalId) (half : SimTime)
    (cycles : UInt32) : ClockExact s signal half cycles := by
  have hstart := books_start (s := initial) rfl
  obtain ⟨hbooks, -⟩ := hstart.after turns [] [] initial s hrun
  rw [List.nil_append, List.nil_append] at hbooks
  have hseq : ∀ e ∈ s.queue, e.seq < s.nextSeq := fun e he =>
    hbooks.seq_lt (List.mem_append_right _ he)
  have hnext : s.nextSeq = (allPlanned turns initial).length :=
    hbooks.nextSeq.trans (Nat.zero_add _)
  have hcycles : cycles.toNat < 2 ^ 32 := cycles.toNat_lt
  have hnow : s.now.fs.toNat < 2 ^ 64 := s.now.fs.toNat_lt
  by_cases hfits : s.now.fs.toNat + 2 * cycles.toNat * half.fs.toNat < 2 ^ 64
  · have hdone : s.scheduleClock signal half cycles = .done () _ := scheduleClock_done hfits
    refine ⟨⟨?_, fun h => absurd hfits (Nat.not_lt.mpr h.2)⟩, ?_, fun _ => ?_, ?_⟩
    · rintro ⟨f, hf⟩
      exact nomatch hdone.symm.trans hf
    · intro f hf
      exact nomatch hdone.symm.trans hf
    · refine ⟨_, hdone, addsClock_withClock hbooks.timely.ordered hseq hfits, ?_⟩
      show s.nextSeq + 2 * cycles.toNat < 2 ^ 64
      omega
    · intro e s' hfailed
      exact nomatch hdone.symm.trans hfailed
  · have hbeyond := Nat.not_lt.mp hfits
    have hpos : 0 < cycles.toNat := by
      refine Nat.pos_of_ne_zero fun hzero => ?_
      rw [hzero, Nat.mul_zero, Nat.zero_mul, Nat.add_zero] at hbeyond
      omega
    obtain ⟨k, hle, hfirst, hfault⟩ :
        ∃ k ≤ 2 * cycles.toNat, FirstBeyond s half k ∧
          s.scheduleClock signal half cycles = .fault (SimTime.faultBeyond (k * half.fs.toNat)) :=
      scheduleClock_fault hbeyond
    refine ⟨⟨fun _ => ⟨hpos, hbeyond⟩, fun _ => ⟨_, hfault⟩⟩, ?_,
      fun h => absurd ⟨hpos, hbeyond⟩ h, ?_⟩
    · intro f hf
      exact ⟨k, hle, hfirst, (Outcome.fault.inj (hfault.symm.trans hf)).symm⟩
    · intro e s' hfailed
      exact nomatch hfault.symm.trans hfailed

/-- A change at the last time but twenty femtoseconds is applied, and two more are to come. -/
def nearEnd (idle : Mux SignalId CallbackHandle) : List (SimTurn ScriptedScheduler) :=
  let turn := SimTurn.mk idle (ScriptedScheduler.failingAt [] ⟨"", ""⟩) #[]
  [turn (.addSignal "clk" .zero), turn (.schedule ⟨18446744073709551595⟩ ⟨0⟩ .x),
    turn (.step (.recorded _)), turn (.schedule ⟨18446744073709551600⟩ ⟨0⟩ .z),
    turn (.schedule ⟨18446744073709551615⟩ ⟨0⟩ .one)]

/-- Two cycles with half a period of five end with the last time there is, behind the change that
is to come then.  Of three cycles the fifth edge is beyond it. -/
theorem clock_exact_nearEnd :
    ∃ (idle : Mux SignalId CallbackHandle) (s s' : Sim),
      Mux.ofConfig { pool := { capacity := 1 } } [] = .ok idle ∧
      after (nearEnd idle) initial = .ok s ∧ (allPlanned (nearEnd idle) initial).length = 3 ∧
      s.scheduleClock ⟨0⟩ ⟨5⟩ 2 = .done () s' ∧ AddsClock s ⟨0⟩ ⟨5⟩ 2 s' ∧
      s'.queue.map (·.seq) = [1, 3, 4, 5, 2, 6] ∧ ClockExact s ⟨0⟩ ⟨5⟩ 3 ∧
      ∃ f, s.scheduleClock ⟨0⟩ ⟨5⟩ 3 = .fault f := by
  obtain ⟨idle, s, t, hidle, hrun, hcount, hnow, hclock, hqueue⟩ :
      ∃ (idle : Mux SignalId CallbackHandle) (s t : Sim),
        Mux.ofConfig { pool := { capacity := 1 } } [] = .ok idle ∧
        after (nearEnd idle) initial = .ok s ∧
        (allPlanned (nearEnd idle) initial).length = 3 ∧
        s.now.fs = 18446744073709551595 ∧ s.scheduleClock ⟨0⟩ ⟨5⟩ 2 = .done () t ∧
        t.queue.map (·.seq) = [1, 3, 4, 5, 2, 6] :=
    ⟨_, _, _, rfl, rfl, rfl, rfl, rfl, rfl⟩
  have hfew : (allPlanned (nearEnd idle) initial).length < 2 ^ 63 := by omega
  have hbeyond := clock_exact hrun hfew ⟨0⟩ ⟨5⟩ 3
  obtain ⟨s', hdone, hadds, -⟩ :=
    (clock_exact hrun hfew ⟨0⟩ ⟨5⟩ 2).scheduled (by rw [hnow]; decide)
  obtain ⟨-, rfl⟩ := Outcome.done.inj (hclock.symm.trans hdone)
  exact ⟨idle, s, t, hidle, hrun, hcount, hdone, hadds, hqueue, hbeyond,
    hbeyond.stops_iff.mpr (by rw [hnow]; decide)⟩

end Sim

end EdgeWait
