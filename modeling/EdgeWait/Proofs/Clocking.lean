/-
What a clock puts into the queue.

* `scheduleEdges_done`, `scheduleClock_done` — a clock whose last edge fits its word schedules all
  its edges, and does nothing else (`Sim.withClock`);
* `enqueueAll_perm`, `enqueueAll_pairwise` — the queue holds what it has held and the edges, in
  order;
* `filter_queue_withClock` — where nothing else is to come on the signal, the edges are what comes
  on it, one after another;
* `filter_clockEdges` — those that an edge waits for are the odd ones, the even ones or all of them.

Design notes: the `k`-th edge is told by the state in which the clock is scheduled, and not by that
in which the turn of the edge comes (`Sim.clockEdge`), so the induction over the edges keeps the
first state fixed and lets the present one go on.
-/
import EdgeWait.Proofs.Causality

namespace EdgeWait

open Sim

/-! ### Times that fit their word -/

/-- So many periods later is a time, as long as it fits its word. -/
theorem SimTime.later_of_lt {t period : SimTime} {k : Nat} (hk : k < 2 ^ 64)
    (h : t.fs.toNat + k * period.fs.toNat < 2 ^ 64) :
    t.later period (UInt64.ofNat k) =
      .ok ⟨UInt64.ofNat (t.fs.toNat + k * period.fs.toNat)⟩ := by
  have hword : (UInt64.ofNat k).toNat = k := UInt64.toNat_ofNat_of_lt' hk
  have hproduct : period.fs.toNat * (UInt64.ofNat k).toNat < UInt64.size := by
    rw [hword, Nat.mul_comm]
    exact Nat.lt_of_le_of_lt (Nat.le_add_left _ _) h
  have hvalue : (period.fs * UInt64.ofNat k).toNat = k * period.fs.toNat := by
    rw [UInt64.toNat_mul, Nat.mod_eq_of_lt hproduct, hword, Nat.mul_comm]
  have hsum : t.fs.toNat + (period.fs * UInt64.ofNat k).toNat < UInt64.size := by
    rw [hvalue]
    exact h
  have htime : t.fs + period.fs * UInt64.ofNat k =
      UInt64.ofNat (t.fs.toNat + k * period.fs.toNat) := by
    apply UInt64.toNat_inj.mp
    rw [UInt64.toNat_add, Nat.mod_eq_of_lt hsum, UInt64.toNat_ofNat_of_lt' h, hvalue]
  rw [later, mulWord, if_pos hproduct]
  show (do return ⟨← addWord t.fs (period.fs * UInt64.ofNat k)⟩ : Except Fault SimTime) = _
  rw [addWord, if_pos hsum, htime]
  rfl

/-! ### Events put into the queue in turn -/

/-- Of two events only one can happen before the other. -/
theorem Event.not_before_of_before {a b : Event} (h : a.before b = true) :
    ¬ b.before a = true := by
  rw [before_iff] at h
  rw [before_iff, UInt64.lt_iff_toNat_lt, ← UInt64.toNat_inj]
  rw [UInt64.lt_iff_toNat_lt, ← UInt64.toNat_inj] at h
  omega

/-- Puts events into a queue, one after another. -/
def enqueueAll : List Event → List Event → List Event
  | [], queue => queue
  | e :: rest, queue => enqueueAll rest (enqueue e queue)

theorem enqueueAll_perm (events : List Event) :
    ∀ queue, (enqueueAll events queue).Perm (events ++ queue) := by
  induction events with
  | nil => exact fun queue => .refl queue
  | cons e rest ih =>
    intro queue
    calc (enqueueAll rest (enqueue e queue)).Perm (rest ++ enqueue e queue) := ih _
      _ |>.Perm (rest ++ e :: queue) := (enqueue_perm e queue).append_left rest
      _ |>.Perm (e :: rest ++ queue) := List.perm_middle

/-- **The queue stays in order** when events are put into it that have been scheduled last, in the
order of their scheduling. -/
theorem enqueueAll_pairwise (events : List Event) :
    ∀ queue : List Event, queue.Pairwise (·.before · = true) →
      (∀ a ∈ queue, ∀ e ∈ events, a.seq < e.seq) → events.Pairwise (·.seq < ·.seq) →
      (enqueueAll events queue).Pairwise (·.before · = true) := by
  induction events with
  | nil => exact fun queue hqueue _ _ => hqueue
  | cons e rest ih =>
    intro queue hqueue hlast hevents
    obtain ⟨he, hrest⟩ := List.pairwise_cons.mp hevents
    refine ih _ (enqueue_pairwise hqueue fun a ha => hlast a ha e List.mem_cons_self) ?_ hrest
    intro a ha c hc
    rcases List.mem_cons.mp ((enqueue_perm e queue).mem_iff.mp ha) with rfl | ha
    · exact he c hc
    · exact hlast a ha c (List.mem_cons_of_mem e hc)

/-! ### The edges of a clock -/

namespace Sim

/-- The `k`-th edge of a clock that is scheduled on `s`. -/
def clockEdge (s : Sim) (signal : SignalId) (half : SimTime) (k : Nat) : Event where
  time := ⟨UInt64.ofNat (s.now.fs.toNat + k * half.fs.toNat)⟩
  seq := s.nextSeq + k - 1
  signal
  value := clockValue k

/-- So many edges, from the `k`-th on. -/
def clockEdges (s : Sim) (signal : SignalId) (half : SimTime) (k n : Nat) : List Event :=
  (List.range' k n).map (s.clockEdge signal half)

/-- The simulator with so many cycles of a clock to come. -/
def withClock (s : Sim) (signal : SignalId) (half : SimTime) (n : Nat) : Sim :=
  { s with
    queue := enqueueAll (s.clockEdges signal half 1 (2 * n)) s.queue
    nextSeq := s.nextSeq + 2 * n }

variable {s : Sim} {signal : SignalId} {half : SimTime}

theorem clockEdges_succ (k n : Nat) :
    s.clockEdges signal half k (n + 1) =
      s.clockEdge signal half k :: s.clockEdges signal half (k + 1) n := by
  rw [clockEdges, List.range'_succ, List.map_cons, clockEdges]

/-- **An edge that fits its word** is scheduled: its time has not passed. -/
theorem scheduleEdges_succ {t : Sim} (hnow : t.now = s.now) {k : Nat} (hk : k < 2 ^ 64)
    (hfit : s.now.fs.toNat + k * half.fs.toNat < 2 ^ 64) (n : Nat) :
    scheduleEdges signal half k (n + 1) t =
      scheduleEdges signal half (k + 1) n
        { t with
          queue := enqueue { s.clockEdge signal half k with seq := t.nextSeq } t.queue
          nextSeq := t.nextSeq + 1 } := by
  have htime : t.now.later half (UInt64.ofNat k) = .ok (s.clockEdge signal half k).time := by
    rw [hnow]
    exact SimTime.later_of_lt hk hfit
  have hpast : ¬ (s.clockEdge signal half k).time.fs < t.now.fs := by
    rw [hnow, UInt64.not_lt, UInt64.le_iff_toNat_le, clockEdge, UInt64.toNat_ofNat_of_lt' hfit]
    exact Nat.le_add_right _ _
  rw [scheduleEdges, htime]
  dsimp only
  rw [schedule, if_neg hpast]
  rfl

/-- **Edges that fit their word** are scheduled, all of them, and nothing else is done. -/
theorem scheduleEdges_done (n : Nat) :
    ∀ (k : Nat) (t : Sim), t.now = s.now → t.nextSeq + 1 = s.nextSeq + k →
      k + n ≤ 2 ^ 64 → (∀ i < k + n, s.now.fs.toNat + i * half.fs.toNat < 2 ^ 64) →
      scheduleEdges signal half k n t = .done ()
        { t with
          queue := enqueueAll (s.clockEdges signal half k n) t.queue
          nextSeq := t.nextSeq + n } := by
  induction n with
  | zero => exact fun k t _ _ _ _ => rfl
  | succ n ih =>
    intro k t hnow hseq hk hfits
    have hedge : { s.clockEdge signal half k with seq := t.nextSeq } =
        s.clockEdge signal half k := by
      -- `t` has the edges before the `k`-th already, so its next number is that of the `k`-th
      have hfirst : t.nextSeq = s.nextSeq + k - 1 := by omega
      rw [hfirst]
      rfl
    rw [scheduleEdges_succ hnow (by omega) (hfits k (by omega)), hedge]
    set t₁ : Sim :=
      { t with queue := enqueue (s.clockEdge signal half k) t.queue, nextSeq := t.nextSeq + 1 }
      with ht₁
    have hseq₁ : t₁.nextSeq + 1 = s.nextSeq + (k + 1) := congrArg (· + 1) hseq
    have hcount : t₁.nextSeq + n = t.nextSeq + (n + 1) := Nat.succ_add_eq_add_succ _ _
    have hrest := ih (k + 1) t₁ hnow hseq₁ (by omega) fun i hi => hfits i (by omega)
    rw [hrest, hcount, clockEdges_succ]
    rfl

/-- **A clock whose last edge fits its word** is scheduled. -/
theorem scheduleClock_done {cycles : UInt32}
    (hfits : s.now.fs.toNat + 2 * cycles.toNat * half.fs.toNat < 2 ^ 64) :
    s.scheduleClock signal half cycles = .done () (s.withClock signal half cycles.toNat) := by
  have hcycles : cycles.toNat < 2 ^ 32 := cycles.toNat_lt
  refine scheduleEdges_done _ 1 s rfl rfl (by omega) fun i hi => ?_
  have hle : i * half.fs.toNat ≤ 2 * cycles.toNat * half.fs.toNat :=
    Nat.mul_le_mul_right _ (by omega)
  omega

/-! ### The edges in the queue -/

/-- What holds of any two edges in their order. -/
theorem pairwise_clockEdges {R : Event → Event → Prop} {n : Nat}
    (h : ∀ i j, 1 ≤ i → i < j → j ≤ n →
      R (s.clockEdge signal half i) (s.clockEdge signal half j)) :
    (s.clockEdges signal half 1 n).Pairwise R := by
  refine List.pairwise_map.mpr (List.Pairwise.imp_of_mem (fun {i j} hi hj hlt => ?_)
    List.pairwise_lt_range')
  have hi' := List.mem_range'_1.mp hi
  have hj' := List.mem_range'_1.mp hj
  exact h i j hi'.1 hlt (by omega)

/-- The edges are numbered in their order. -/
theorem pairwise_seq_clockEdges (n : Nat) :
    (s.clockEdges signal half 1 n).Pairwise (·.seq < ·.seq) := by
  refine pairwise_clockEdges fun i j hi hlt _ => ?_
  show s.nextSeq + i - 1 < s.nextSeq + j - 1
  omega

/-- An edge that fits its word comes as many half periods later as its number says. -/
theorem toNat_time_clockEdge {k n : Nat} (hk : k ≤ n)
    (hfits : s.now.fs.toNat + n * half.fs.toNat < 2 ^ 64) :
    (s.clockEdge signal half k).time.fs.toNat = s.now.fs.toNat + k * half.fs.toNat := by
  have hle : k * half.fs.toNat ≤ n * half.fs.toNat := Nat.mul_le_mul_right _ hk
  exact UInt64.toNat_ofNat_of_lt' (by simp only [UInt64.size]; omega)

/-- The edges happen in their order. -/
theorem pairwise_before_clockEdges {n : Nat}
    (hfits : s.now.fs.toNat + n * half.fs.toNat < 2 ^ 64) :
    (s.clockEdges signal half 1 n).Pairwise (·.before · = true) := by
  refine pairwise_clockEdges fun i j hi hlt hj => Event.before_of_le ?_ ?_
  · rw [UInt64.le_iff_toNat_le, toNat_time_clockEdge (by omega) hfits,
      toNat_time_clockEdge hj hfits]
    exact Nat.add_le_add_left (Nat.mul_le_mul_right _ (Nat.le_of_lt hlt)) _
  · show s.nextSeq + i - 1 < s.nextSeq + j - 1
    omega

/-- No two edges come at one time, if there is time between them. -/
theorem pairwise_time_clockEdges {n : Nat} (hhalf : 0 < half.fs)
    (hfits : s.now.fs.toNat + n * half.fs.toNat < 2 ^ 64) :
    (s.clockEdges signal half 1 n).Pairwise (·.time.fs < ·.time.fs) := by
  refine pairwise_clockEdges fun i j _ hlt hj => ?_
  rw [UInt64.lt_iff_toNat_lt, toNat_time_clockEdge (by omega) hfits,
    toNat_time_clockEdge hj hfits]
  exact Nat.add_lt_add_left (Nat.mul_lt_mul_of_pos_right hlt (UInt64.lt_iff_toNat_lt.mp hhalf)) _

/-- The edges of a clock come behind whatever happens at their times already. -/
theorem pairwise_queue_withClock {n : Nat} (hqueue : s.queue.Pairwise (·.before · = true))
    (hseq : ∀ e ∈ s.queue, e.seq < s.nextSeq) :
    (s.withClock signal half n).queue.Pairwise (·.before · = true) := by
  refine enqueueAll_pairwise _ s.queue hqueue (fun a ha e he => ?_) (pairwise_seq_clockEdges _)
  obtain ⟨k, hk, rfl⟩ := List.mem_map.mp he
  have hpos := (List.mem_range'_1.mp hk).1
  have hlt := hseq a ha
  show a.seq < s.nextSeq + k - 1
  omega

/-- The edges of a clock are on its signal. -/
theorem Grounded.withClock (h : s.Grounded) (hsignal : s.Has signal) (n : Nat) :
    (s.withClock signal half n).Grounded := by
  intro e he
  rcases List.mem_append.mp ((enqueueAll_perm _ _).mem_iff.mp he) with he | he
  · obtain ⟨k, -, rfl⟩ := List.mem_map.mp he
    exact hsignal
  · exact h e he

/-- **The edges of a clock** are what comes on a signal for which nothing else has been
scheduled. -/
theorem filter_queue_withClock {n : Nat} (hqueue : s.queue.Pairwise (·.before · = true))
    (hseq : ∀ e ∈ s.queue, e.seq < s.nextSeq) (hquiet : ∀ e ∈ s.queue, e.signal ≠ signal)
    (hfits : s.now.fs.toNat + 2 * n * half.fs.toNat < 2 ^ 64) :
    (s.withClock signal half n).queue.filter (·.signal = signal) =
      s.clockEdges signal half 1 (2 * n) := by
  have hordered : (s.withClock signal half n).queue.Pairwise (·.before · = true) :=
    pairwise_queue_withClock hqueue hseq
  have hedges : (s.clockEdges signal half 1 (2 * n)).filter (·.signal = signal) =
      s.clockEdges signal half 1 (2 * n) := by
    refine List.filter_eq_self.mpr fun e he => ?_
    obtain ⟨k, -, rfl⟩ := List.mem_map.mp he
    exact decide_eq_true rfl
  have hnothing : s.queue.filter (·.signal = signal) = [] :=
    List.filter_eq_nil_iff.mpr fun e he => by simpa using hquiet e he
  have hperm := (enqueueAll_perm (s.clockEdges signal half 1 (2 * n)) s.queue).filter
    (·.signal = signal)
  rw [List.filter_append, hedges, hnothing, List.append_nil] at hperm
  -- the two lists hold the same events, which happen in one order only
  exact hperm.eq_of_pairwise (fun a b _ _ hab hba => absurd hba (a.not_before_of_before hab))
    (hordered.filter _) (pairwise_before_clockEdges hfits)

end Sim

/-! ### The edges that are waited for -/

/-- The numbers of the edges of `n` cycles of a clock that are such edges: the odd ones rise, and
the even ones fall. -/
def Edge.ticks (n : Nat) : Edge → List Nat
  | rising => (List.range n).map fun i => 2 * i + 1
  | falling => (List.range n).map fun i => 2 * i + 2
  | either => List.range' 1 (2 * n)

theorem Edge.filter_clockValue (edge : Edge) (n : Nat) :
    ((List.range' 1 (2 * n)).filter fun k => edge.condition.accepts (clockValue k)) =
      edge.ticks n := by
  have hodd : ∀ i, clockValue (2 * i + 1) = .one := fun i => if_pos (by omega)
  have heven : ∀ i, clockValue (2 * i + 2) = .zero := fun i => if_neg (by omega)
  induction n with
  | zero => cases edge <;> rfl
  | succ n ih =>
    -- the last cycle has the edges `2n + 1`, which rises, and `2n + 2`, which falls
    have hlast : List.range' 1 (2 * (n + 1)) =
        List.range' 1 (2 * n) ++ [2 * n + 1, 2 * n + 2] := by
      rw [Nat.mul_succ, List.range'_concat, List.range'_concat, List.append_assoc]
      simp only [Nat.one_mul, List.singleton_append]
      rw [Nat.add_comm 1 (2 * n), Nat.add_comm 1 (2 * n + 1)]
    rw [hlast, List.filter_append, ih]
    cases edge with
    | rising =>
      simp [ticks, List.range_succ, Edge.condition, Condition.accepts, hodd, heven]
    | falling =>
      simp [ticks, List.range_succ, Edge.condition, Condition.accepts, hodd, heven]
    | either => simp [ticks, Edge.condition, Condition.accepts, hlast]

/-- **The edges that are waited for**, in the order of their numbers. -/
theorem Sim.filter_clockEdges (s : Sim) (signal : SignalId) (half : SimTime) (edge : Edge)
    (n : Nat) :
    ((s.clockEdges signal half 1 (2 * n)).filter fun e => edge.condition.accepts e.value) =
      (edge.ticks n).map (s.clockEdge signal half) := by
  rw [clockEdges, List.filter_map, ← edge.filter_clockValue n]
  rfl

end EdgeWait
