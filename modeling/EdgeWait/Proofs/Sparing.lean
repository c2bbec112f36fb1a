/-
Two contexts, one of which lacks what has been cancelled.

The same is done to both, except that some requests have been cancelled in the second one only.  It
holds what the first one holds, on every signal and in the same order, without the registrations of
these requests (`Lacks`).

* `flush_along`, `registerSingle_along`, `cancel_along`, `shutdown_along` — so it stays, whatever
  the host does to both;
* `cancel_second` — so it becomes, when one more request is cancelled in the second one;
* `Lacks.report` — of the hand-overs of the first one, the second one makes those that are not for
  the registrations it lacks;
* `step_along`, `run_along`, `runUntil_along` — steps and runs of both.

Design notes: only the first context can find its pool empty while the other one goes on, because it
holds more.  What happens after that is of no interest here, so operations go along (`GoAlong`) also
if the first one exhausts the pool.  They go along, too, if both stop on the same fault, as they do at
an event without a signal.
-/
import EdgeWait.Proofs.Firing
import EdgeWait.Proofs.Lockstep

namespace EdgeWait

open Sim

/-! ### Exhausted pools -/

/-- The pool has been too small. -/
def MuxError.IsExhausted : MuxError → Prop
  | poolExhausted _ => True
  | _ => False

/-- The same error, when it comes up in a step of the simulator. -/
def SimError.IsExhausted : SimError → Prop
  | mux error => error.IsExhausted
  | _ => False

/-- What is said of its errors does not matter to an outcome that is none. -/
theorem Outcome.mapError_eq_done {ε ε' S α : Type} {o : Outcome ε S α} {g : ε → ε'} {a : α} {s : S}
    (h : o.mapError g = .done a s) : o = .done a s := by
  cases o with
  | done a' s' =>
    obtain ⟨rfl, rfl⟩ := Outcome.done.inj h
    rfl
  | failed e s' => cases h
  | fault f => cases h

/-! ### What is prepared on both simulators -/

namespace Sim

theorem plain_addSignal (name : String) (initial : Logic) :
    Plain fun s => ((s.addSignal name initial).toOption.map (·.2)).getD s where
  callbacks s := by
    rw [addSignal]
    split <;> rfl
  nextOrder s := by
    rw [addSignal]
    split <;> rfl
  agrees := by
    intro c s hworld hsteps
    have hfind : s.findSignal name = c.findSignal name := by
      rw [findSignal, findSignal, hworld.signals]
    cases hknown : c.findSignal name with
    | some id =>
      simp only [addSignal, hfind, hknown]
      exact ⟨hworld, hsteps⟩
    | none =>
      simp only [addSignal, hfind, hknown]
      refine ⟨⟨hworld.now, hworld.queue, hworld.nextSeq, ?_⟩, hsteps⟩
      show s.signals.push _ = c.signals.push _
      rw [hworld.signals]

/-- The edges of a clock are the same on simulators that agree, and so is the fault if the time of
one of them does not fit its word. -/
theorem scheduleEdges_agrees (signal : SignalId) (half : SimTime) (n : Nat) :
    ∀ (k : Nat) (c s : Sim), SameWorld c s → s.steps = c.steps →
      (∃ f, scheduleEdges signal half k n c = .fault f ∧
        scheduleEdges signal half k n s = .fault f) ∨
      ∃ c' s', (scheduleEdges signal half k n c).final = .ok c' ∧
        (scheduleEdges signal half k n s).final = .ok s' ∧ SameWorld c' s' ∧
        s'.steps = c'.steps := by
  induction n with
  | zero => exact fun k c s hworld hsteps => .inr ⟨c, s, rfl, rfl, hworld, hsteps⟩
  | succ n ih =>
    intro k c s hworld hsteps
    rw [scheduleEdges, scheduleEdges, hworld.now]
    cases c.now.later half (UInt64.ofNat k) with
    | error f => exact .inl ⟨f, rfl, rfl⟩
    | ok time =>
      by_cases hpast : time.fs < c.now.fs
      · have hpast' : time.fs < s.now.fs := hworld.now ▸ hpast
        simp only [schedule, if_pos hpast, if_pos hpast']
        exact .inr ⟨c, s, rfl, rfl, hworld, hsteps⟩
      · have hpast' : ¬ time.fs < s.now.fs := hworld.now ▸ hpast
        simp only [schedule, if_neg hpast, if_neg hpast']
        refine ih (k + 1) _ _ ⟨hworld.now, ?_, ?_, hworld.signals⟩ hsteps
        · show enqueue ⟨time, s.nextSeq, signal, clockValue k⟩ s.queue = _
          rw [hworld.queue, hworld.nextSeq]
        · show s.nextSeq + 1 = _
          rw [hworld.nextSeq]

theorem plain_scheduleClock (signal : SignalId) (half : SimTime) (cycles : UInt32) :
    Plain fun s => (s.scheduleClock signal half cycles).final.toOption.getD s where
  callbacks s := by
    cases hfinal : (s.scheduleClock signal half cycles).final with
    | error f => rfl
    | ok s' => exact (untouched_scheduleEdges signal half _ _ _ _ hfinal).callbacks
  nextOrder s := by
    cases hfinal : (s.scheduleClock signal half cycles).final with
    | error f => rfl
    | ok s' => exact (untouched_scheduleEdges signal half _ _ _ _ hfinal).nextOrder
  agrees := by
    intro c s hworld hsteps
    obtain ⟨f, hc, hs⟩ | ⟨c', s', hc, hs, hworld', hsteps'⟩ :=
      scheduleEdges_agrees signal half (2 * cycles.toNat) 1 c s hworld hsteps
    · simp only [scheduleClock, hc, hs]
      exact ⟨hworld, hsteps⟩
    · simp only [scheduleClock, hc, hs]
      exact ⟨hworld', hsteps'⟩

end Sim

namespace Bench

variable {T : Type} {cancelled : List Nat} {c c' : Sim} {label label₁ label₂ : Nat → Option Nat}
  {b₁ b₂ b₁' b₂' b₁'' b₂'' : SimBench (SchedulerRecord T)} {L L₁ L₂ L₁' L₂' : List SimHolding}
  {given given' : List HandOver}

/-- Two operations go along: both stop on the same fault, or the first one ends in one of the errors
`E`, or both are answered, with answers related by `R` and in states related by `D`. -/
def GoAlong {ε α S : Type} (E : ε → Prop) (R : α → α → Prop) (D : S → S → Prop)
    (o₁ o₂ : Outcome ε S α) : Prop :=
  (∃ f, o₁ = .fault f ∧ o₂ = .fault f) ∨ (∃ e b, o₁ = .failed e b ∧ E e) ∨
    ∃ a₁ a₂ b₁ b₂, o₁ = .done a₁ b₁ ∧ o₂ = .done a₂ b₂ ∧ R a₁ a₂ ∧ D b₁ b₂

section GoAlong

variable {ε α S : Type} {R : α → α → Prop} {D : S → S → Prop}

theorem GoAlong.mapError {o₁ o₂ : Outcome MuxError S α}
    (h : GoAlong MuxError.IsExhausted R D o₁ o₂) :
    GoAlong SimError.IsExhausted R D (o₁.mapError .mux) (o₂.mapError .mux) := by
  obtain ⟨f, rfl, rfl⟩ | ⟨e, b, rfl, he⟩ | ⟨a₁, a₂, b₁, b₂, rfl, rfl, hR, hD⟩ := h
  · exact .inl ⟨f, rfl, rfl⟩
  · exact .inr <| .inl ⟨.mux e, b, rfl, he⟩
  · exact .inr <| .inr ⟨a₁, a₂, b₁, b₂, rfl, rfl, hR, hD⟩

/-- What goes along goes on, in what the first operation has come to. -/
theorem GoAlong.andThen {E : ε → Prop} {β : Type} {R' : β → β → Prop} {D' : S → S → Prop}
    {o₁ o₂ : Outcome ε S α} {next₁ next₂ : α → S → Outcome ε S β} (h : GoAlong E R D o₁ o₂)
    (hnext : ∀ a₁ a₂ b₁ b₂, o₁ = .done a₁ b₁ → R a₁ a₂ → D b₁ b₂ →
      GoAlong E R' D' (next₁ a₁ b₁) (next₂ a₂ b₂)) :
    GoAlong E R' D' (o₁.andThen next₁) (o₂.andThen next₂) := by
  obtain ⟨f, rfl, rfl⟩ | ⟨e, b, rfl, he⟩ | ⟨a₁, a₂, b₁, b₂, rfl, rfl, hR, hD⟩ := h
  · exact .inl ⟨f, rfl, rfl⟩
  · exact .inr <| .inl ⟨e, b, rfl, he⟩
  · exact hnext a₁ a₂ b₁ b₂ rfl hR hD

end GoAlong

/-! ### Contexts that lack registrations -/

/-- A registration with this label is none of the cancelled requests. -/
def spares (cancelled : List Nat) (label : Option Nat) : Bool := label.all (· ∉ cancelled)

theorem spares_iff {label : Option Nat} :
    spares cancelled label = true ↔ ∀ request ∈ cancelled, label ≠ some request := by
  cases label with
  | none => simp [spares]
  | some other =>
    rw [spares, Option.all_some, decide_eq_true_iff]
    constructor
    · rintro hother request hrequest ⟨⟩
      exact hother hrequest
    · exact fun h hother => h other hother rfl

/-- The holdings that the second context has as well. -/
def spared (cancelled : List Nat) (label : Nat → Option Nat) (L : List SimHolding) :
    List SimHolding :=
  L.filter fun e => spares cancelled (label e.number)

/-- The second context lacks the registrations of the cancelled requests, and nothing else. -/
structure Lacks [Scheduler T] (cancelled : List Nat) (c : Sim) (label₁ label₂ : Nat → Option Nat)
    (b₁ : SimBench (SchedulerRecord T)) (L₁ : List SimHolding)
    (b₂ : SimBench (SchedulerRecord T)) (L₂ : List SimHolding) : Prop where
  left : Side c label₁ b₁ L₁
  right : Side c label₂ b₂ L₂
  matched : Matched label₁ label₂ b₁ (spared cancelled label₁ L₁) b₂ L₂
  capacity : b₁.mux.subscriptions.pool.capacity = b₂.mux.subscriptions.pool.capacity
  waiting : SameWaiting b₁ b₂
  willing₁ : Willing b₁
  willing₂ : Willing b₂

/-- From `b₁` and `b₂` two contexts have come to `b₁'` and `b₂'`.  The first one has made the
hand-overs `given`, and the second one those of the registrations that it has as well. -/
structure Parallel [Scheduler T] (cancelled : List Nat) (label₁ label₂ : Nat → Option Nat)
    (b₁ b₂ : SimBench (SchedulerRecord T)) (given : List HandOver)
    (b₁' b₂' : SimBench (SchedulerRecord T)) : Prop where
  lacks : ∃ c L₁ L₂, Lacks cancelled c label₁ label₂ b₁' L₁ b₂' L₂
  issued₁ : b₁.log.issued <+: b₁'.log.issued
  issued₂ : b₂.log.issued <+: b₂'.log.issued
  /-- The hand-overs are those of registrations that have been made. -/
  calls : ∃ F : List SimHolding, given = F.map handOverOf ∧
    (∀ e ∈ F, b₁'.log.issued[e.number]? = some e.key) ∧
    b₁'.resumed = b₁.resumed ++ F.map (·.registration.tasks) ∧
    b₂'.resumed = b₂.resumed ++ (spared cancelled label₁ F).map (·.registration.tasks)

/-- Holdings that are the same on every signal are the same but for their order. -/
theorem Matched.perm (h : Matched label₁ label₂ b₁ L₁ b₂ L₂) :
    (L₁.map (view label₁)).Perm (L₂.map (view label₂)) := by
  refine List.perm_iff_count.mpr fun w => ?_
  -- a view occurs as often as it does among those on its own signal
  have hsignal : ∀ (label : Nat → Option Nat) (L : List SimHolding),
      (L.map (view label)).count w =
        ((L.filter (·.registration.signal = w.1.signal)).map (view label)).count w := by
    intro label L
    have hself : decide (w.1.signal = w.1.signal) = true := decide_eq_true rfl
    have hcount := List.count_filter (p := fun u : Demand SignalId × Option Nat =>
      decide (u.1.signal = w.1.signal)) (l := L.map (view label)) hself
    rw [List.filter_map] at hcount
    exact hcount.symm
  rw [hsignal label₁ L₁, hsignal label₂ L₂, h.holdings w.1.signal]

/-- All that has been registered by a flush is spared. -/
theorem spared_append_of_unlabelled {new : List SimHolding}
    (hnone : ∀ e ∈ new, label e.number = none) :
    spared cancelled label (L ++ new) = spared cancelled label L ++ new := by
  have hnew : spared cancelled label new = new := by
    refine List.filter_eq_self.mpr fun e he => ?_
    rw [hnone e he]
    rfl
  rw [spared, List.filter_append]
  exact congrArg (spared cancelled label L ++ ·) hnew

theorem issued_getElem?_of_prefix {issued issued' : List RegistrationKey}
    (h : issued <+: issued') {m : Nat} {key : RegistrationKey} (hm : issued[m]? = some key) :
    issued'[m]? = some key := by
  obtain ⟨later, rfl⟩ := h
  rw [List.getElem?_append_left (List.getElem?_eq_some_iff.mp hm).choose, hm]

section Scheduler

variable [Scheduler T]

/-- The second context holds no more than the first one. -/
theorem Lacks.length_le (h : Lacks cancelled c label₁ label₂ b₁ L₁ b₂ L₂) :
    L₂.length ≤ L₁.length := by
  have hlength := h.matched.perm.length_eq
  rw [List.length_map, List.length_map] at hlength
  rw [← hlength]
  exact List.length_filter_le _ _

theorem Lacks.sameWorld (h : Lacks cancelled c label₁ label₂ b₁ L₁ b₂ L₂) :
    SameWorld b₂.native b₁.native ∧ b₁.native.steps = b₂.native.steps :=
  h.left.sameWorld h.right

theorem Lacks.nextTime?_eq (h : Lacks cancelled c label₁ label₂ b₁ L₁ b₂ L₂) :
    b₁.native.nextTime? = b₂.native.nextTime? := by
  rw [Sim.nextTime?, Sim.nextTime?, h.sameWorld.1.queue]

theorem Lacks.observe_eq (h : Lacks cancelled c label₁ label₂ b₁ L₁ b₂ L₂) (value : Logic) :
    b₂.mux.observe value = b₁.mux.observe value := by
  rw [Mux.observe, Mux.observe, h.matched.unknownAsZero]

theorem Lacks.congr (h : Lacks cancelled c label₁ label₂ b₁ L₁ b₂ L₂) (hcore₁ : SameCore b₁ b₁')
    (hcore₂ : SameCore b₂ b₂') (hwaiting : SameWaiting b₁' b₂') :
    Lacks cancelled c label₁ label₂ b₁' L₁ b₂' L₂ := by
  refine ⟨h.left.congr hcore₁, h.right.congr hcore₂,
    h.matched.keep hcore₁.sameSettings hcore₂.sameSettings h.matched.holdings, ?_, hwaiting,
    h.willing₁.keep hcore₁.poisoned hcore₁.scheduler,
    h.willing₂.keep hcore₂.poisoned hcore₂.scheduler⟩
  rw [hcore₁.subscriptions, hcore₂.subscriptions, h.capacity]

theorem Lacks.onSim (h : Lacks cancelled c label₁ label₂ b₁ L₁ b₂ L₂) {f : Sim → Sim}
    (hf : Plain f) :
    Lacks cancelled (f c) label₁ label₂ (b₁.onSim f) L₁ (b₂.onSim f) L₂ :=
  ⟨h.left.onSim hf, h.right.onSim hf, ⟨h.matched.policy, h.matched.unknownAsZero,
    h.matched.holdings⟩, h.capacity, h.waiting, h.willing₁.keep rfl rfl, h.willing₂.keep rfl rfl⟩

/-- Nothing has been handed over. -/
theorem Lacks.parallel (h : Lacks cancelled c label₁ label₂ b₁' L₁ b₂' L₂)
    (hissued₁ : b₁.log.issued <+: b₁'.log.issued) (hissued₂ : b₂.log.issued <+: b₂'.log.issued)
    (hscheduler₁ : b₁'.scheduler = b₁.scheduler) (hscheduler₂ : b₂'.scheduler = b₂.scheduler) :
    Parallel cancelled label₁ label₂ b₁ b₂ [] b₁' b₂' := by
  refine ⟨⟨c, L₁, L₂, h⟩, hissued₁, hissued₂, [], rfl, by simp, ?_, ?_⟩
  · rw [resumed_of_scheduler hscheduler₁]
    exact (List.append_nil _).symm
  · rw [resumed_of_scheduler hscheduler₂]
    exact (List.append_nil _).symm

theorem Lacks.refl (h : Lacks cancelled c label₁ label₂ b₁ L₁ b₂ L₂) :
    Parallel cancelled label₁ label₂ b₁ b₂ [] b₁ b₂ :=
  h.parallel List.prefix_rfl List.prefix_rfl rfl rfl

theorem Lacks.parallel_onSim (h : Lacks cancelled c label₁ label₂ b₁ L₁ b₂ L₂) {f : Sim → Sim}
    (hf : Plain f) :
    Parallel cancelled label₁ label₂ b₁ b₂ [] (b₁.onSim f) (b₂.onSim f) :=
  (h.onSim hf).parallel List.prefix_rfl List.prefix_rfl rfl rfl

/-- Lines of the log that issue no key do not matter. -/
theorem Lacks.parallel_note (h : Lacks cancelled c label₁ label₂ b₁ L₁ b₂ L₂)
    {entry₁ entry₂ : LogEntry} (hcore₁ : SameCore b₁ (b₁.note entry₁))
    (hcore₂ : SameCore b₂ (b₂.note entry₂)) :
    Parallel cancelled label₁ label₂ b₁ b₂ [] (b₁.note entry₁) (b₂.note entry₂) :=
  (h.congr hcore₁ hcore₂ h.waiting).parallel (by rw [hcore₁.issued]) (by rw [hcore₂.issued]) rfl rfl

theorem Parallel.trans (h : Parallel cancelled label₁ label₂ b₁ b₂ given b₁' b₂')
    (h' : Parallel cancelled label₁ label₂ b₁' b₂' given' b₁'' b₂'') :
    Parallel cancelled label₁ label₂ b₁ b₂ (given ++ given') b₁'' b₂'' := by
  obtain ⟨F, rfl, hF, hfirst, hsecond⟩ := h.calls
  obtain ⟨F', rfl, hF', hfirst', hsecond'⟩ := h'.calls
  refine ⟨h'.lacks, h.issued₁.trans h'.issued₁, h.issued₂.trans h'.issued₂, F ++ F',
    List.map_append.symm, fun e he => ?_, ?_, ?_⟩
  · rcases List.mem_append.mp he with he | he
    · exact issued_getElem?_of_prefix h'.issued₁ (hF e he)
    · exact hF' e he
  · rw [hfirst', hfirst, List.append_assoc, List.map_append]
  · rw [hsecond', hsecond, List.append_assoc, spared, spared, spared, List.filter_append,
      List.map_append]

/-- Operations that go along from later states go along from earlier ones. -/
theorem GoAlong.after {ε α : Type} {E : ε → Prop} {R : α → α → Prop}
    {o₁ o₂ : Outcome ε (SimBench (SchedulerRecord T)) α}
    (h : GoAlong E R (Parallel cancelled label₁ label₂ b₁' b₂' given') o₁ o₂)
    (hfirst : Parallel cancelled label₁ label₂ b₁ b₂ given b₁' b₂') :
    GoAlong E R (Parallel cancelled label₁ label₂ b₁ b₂ (given ++ given')) o₁ o₂ := by
  obtain hfault | hfailed | ⟨a₁, a₂, d₁, d₂, heq₁, heq₂, hR, hmore⟩ := h
  · exact .inl hfault
  · exact .inr <| .inl hfailed
  · exact .inr <| .inr ⟨a₁, a₂, d₁, d₂, heq₁, heq₂, hR, hfirst.trans hmore⟩

/-! ### Operations without hand-overs -/

/-- **A flush** of both finds the first pool empty, or makes every registration in both. -/
theorem flush_along (h : Lacks cancelled c label₁ label₂ b₁ L₁ b₂ L₂)
    (order₁ order₂ : VisitOrder SignalId) :
    GoAlong MuxError.IsExhausted (fun _ _ => True) (Parallel cancelled label₁ label₂ b₁ b₂ [])
      (b₁.flush order₁) (b₂.flush order₂) := by
  have hmatched := h.matched
  have hcount : (b₁.mux.pending.demands b₁.mux.policy order₁).length =
      (b₂.mux.pending.demands b₂.mux.policy order₂).length := by
    rw [hmatched.policy]
    exact (PendingWaits.demands_perm h.waiting).length_eq
  have hlength := h.length_le
  have hcapacity := h.capacity
  obtain ⟨new₁, b₁', hside₁, hnone₁, hframe₁, hissued₁, hflush₁⟩ :=
    flush_side h.left h.willing₁.live order₁
  obtain ⟨new₂, b₂', hside₂, hnone₂, hframe₂, hissued₂, hflush₂⟩ :=
    flush_side h.right h.willing₂.live order₂
  generalize b₁.flush order₁ = o₁ at hflush₁ ⊢
  generalize b₂.flush order₂ = o₂ at hflush₂ ⊢
  -- the second roster is no longer than the first, so it has room where the first has
  cases hflush₁ with
  | exhausted => exact .inr <| .inl ⟨_, b₁', rfl, trivial⟩
  | done summary₁ hroom₁ hup₁ hpending₁ hnew₁ =>
    cases hflush₂ with
    | exhausted hnoRoom₂ => omega
    | done summary₂ hroom₂ hup₂ hpending₂ hnew₂ =>
      have hmatched' : Matched label₁ label₂ b₁' (spared cancelled label₁ (L₁ ++ new₁)) b₂'
          (L₂ ++ new₂) := by
        rw [spared_append_of_unlabelled hnone₁]
        refine hmatched.extend hframe₁.sameSettings hframe₂.sameSettings (fun _ _ => rfl)
          (fun _ _ => rfl) fun signal => ?_
        rw [map_view_of_unlabelled hnone₁, map_view_of_unlabelled hnone₂, hnew₁, hnew₂,
          hmatched.policy, PendingWaits.filter_demands_congr h.waiting]
      have hlacks : Lacks cancelled c label₁ label₂ b₁' (L₁ ++ new₁) b₂' (L₂ ++ new₂) := by
        refine ⟨hside₁, hside₂, hmatched', ?_, ?_,
          h.willing₁.keep (hup₁.trans h.willing₁.live.symm) hframe₁.scheduler,
          h.willing₂.keep (hup₂.trans h.willing₂.live.symm) hframe₂.scheduler⟩
        · rw [hframe₁.capacity, hframe₂.capacity, h.capacity]
        · intro signal edge
          rw [hpending₁, hpending₂, PendingWaits.waiting_clear, PendingWaits.waiting_clear]
      exact .inr <| .inr ⟨summary₁, summary₂, b₁', b₂', rfl, rfl, trivial,
        hlacks.parallel hissued₁ hissued₂ hframe₁.scheduler hframe₂.scheduler⟩

/-- What keeps the waits of both, and leaves the schedulers alone. -/
theorem Lacks.keep (h : Lacks cancelled c label₁ label₂ b₁ L₁ b₂ L₂) {cancelled' : List Nat}
    {label₁' label₂' : Nat → Option Nat} (hkeeps₁ : Keeps b₁ b₁') (hkeeps₂ : Keeps b₂ b₂')
    (hwilling₁ : Willing b₁') (hwilling₂ : Willing b₂') (hside₁ : Side c' label₁' b₁' L₁')
    (hside₂ : Side c' label₂' b₂' L₂')
    (hmatched : Matched label₁' label₂' b₁' (spared cancelled' label₁' L₁') b₂' L₂') :
    Lacks cancelled' c' label₁' label₂' b₁' L₁' b₂' L₂' := by
  refine ⟨hside₁, hside₂, hmatched, ?_, ?_, hwilling₁, hwilling₂⟩
  · rw [hkeeps₁.capacity, hkeeps₂.capacity, h.capacity]
  · intro signal edge
    rw [hkeeps₁.pending, hkeeps₂.pending]
    exact h.waiting signal edge

/-- What it leads to when a task is subscribed at once in both contexts: the first pool is empty, or
both issue a key for the request. -/
inductive SubscribedAlong (cancelled : List Nat) (label₁ label₂ : Nat → Option Nat) (request : Nat)
    (b₁ b₂ : SimBench (SchedulerRecord T)) :
    Outcome MuxError (SimBench (SchedulerRecord T)) RegistrationKey →
    Outcome MuxError (SimBench (SchedulerRecord T)) RegistrationKey → Prop where
  | exhausted (e : MuxError) (b₁' : SimBench (SchedulerRecord T))
      (o₂ : Outcome MuxError (SimBench (SchedulerRecord T)) RegistrationKey)
      (full : e.IsExhausted) :
      SubscribedAlong cancelled label₁ label₂ request b₁ b₂ (.failed e b₁') o₂
  | done (e₁ e₂ : SimHolding) (b₁' b₂' : SimBench (SchedulerRecord T))
      (later₁ : b₁.log.issued.length ≤ e₁.number)
      (issued₁ : b₁'.log.issued[e₁.number]? = some e₁.key)
      (later₂ : b₂.log.issued.length ≤ e₂.number)
      (issued₂ : b₂'.log.issued[e₂.number]? = some e₂.key)
      (parallel : Parallel cancelled (Function.update label₁ e₁.number (some request))
        (Function.update label₂ e₂.number (some request)) b₁ b₂ [] b₁' b₂') :
      SubscribedAlong cancelled label₁ label₂ request b₁ b₂ (.done e₁.key b₁') (.done e₂.key b₂')

/-- **A task that is subscribed at once** by a request that is not cancelled. -/
theorem registerSingle_along (h : Lacks cancelled c label₁ label₂ b₁ L₁ b₂ L₂)
    (signal : SignalId) (edge : Edge) (task : TaskId) (mode : Mode) {request : Nat}
    (hrequest : request ∉ cancelled) :
    SubscribedAlong cancelled label₁ label₂ request b₁ b₂ (b₁.registerSingle signal edge task mode)
      (b₂.registerSingle signal edge task mode) := by
  have hlength := h.length_le
  have hcapacity := h.capacity
  obtain ⟨b₁', hkeeps₁, hscheduler₁, hresult₁⟩ :=
    registerSingle_side h.left h.willing₁.live signal edge task mode request
  obtain ⟨b₂', hkeeps₂, hscheduler₂, hresult₂⟩ :=
    registerSingle_side h.right h.willing₂.live signal edge task mode request
  generalize b₁.registerSingle signal edge task mode = o₁ at hresult₁ ⊢
  generalize b₂.registerSingle signal edge task mode = o₂ at hresult₂ ⊢
  cases hresult₁ with
  | exhausted => exact .exhausted _ b₁' o₂ trivial
  | done e₁ hroom₁ hside₁ hlater₁ hissued₁ hdemand₁ hup₁ =>
    cases hresult₂ with
    | exhausted hfull₂ => omega
    | done e₂ hroom₂ hside₂ hlater₂ hissued₂ hdemand₂ hup₂ =>
      have hold₁ := h.left.update_of_mem hlater₁ (some request)
      have hold₂ := h.right.update_of_mem hlater₂ (some request)
      have hview : view (Function.update label₁ e₁.number (some request)) e₁ =
          view (Function.update label₂ e₂.number (some request)) e₂ := by
        rw [view, view, hdemand₁, hdemand₂, Function.update_self, Function.update_self]
      -- the new registration is spared, and the others are as they were before
      have hspared : spared cancelled (Function.update label₁ e₁.number (some request))
          (L₁ ++ [e₁]) = spared cancelled label₁ L₁ ++ [e₁] := by
        have hnew : spares cancelled
            (Function.update label₁ e₁.number (some request) e₁.number) = true := by
          rw [Function.update_self]
          exact decide_eq_true hrequest
        rw [spared, List.filter_append, List.filter_singleton, hnew,
          List.filter_congr fun e he => congrArg (spares cancelled) (hold₁ e he)]
        rfl
      have hwilling₁ := h.willing₁.keep (hup₁.trans h.willing₁.live.symm) hscheduler₁
      have hwilling₂ := h.willing₂.keep (hup₂.trans h.willing₂.live.symm) hscheduler₂
      have hmatched : Matched (Function.update label₁ e₁.number (some request))
          (Function.update label₂ e₂.number (some request)) b₁'
          (spared cancelled (Function.update label₁ e₁.number (some request)) (L₁ ++ [e₁])) b₂'
          (L₂ ++ [e₂]) := by
        rw [hspared]
        exact h.matched.extend hkeeps₁.toSameSettings hkeeps₂.toSameSettings
          (fun e he => hold₁ e (List.mem_of_mem_filter he)) hold₂ (map_view_singleton hview)
      have hlacks := h.keep hkeeps₁ hkeeps₂ hwilling₁ hwilling₂ hside₁ hside₂ hmatched
      exact .done e₁ e₂ b₁' b₂' hlater₁ hissued₁ hlater₂ hissued₂
        (hlacks.parallel hkeeps₁.issued hkeeps₂.issued hscheduler₁ hscheduler₂)

/-- **A cancel** of the keys that have been issued for the same request, whether or not the second
context has cancelled it before. -/
theorem cancel_along (h : Lacks cancelled c label₁ label₂ b₁ L₁ b₂ L₂)
    {key₁ key₂ : RegistrationKey} {request : Nat}
    (hkey₁ : ∀ e ∈ L₁, label₁ e.number = some request ↔ e.key = key₁)
    (hkey₂ : ∀ e ∈ L₂, label₂ e.number = some request ↔ e.key = key₂) :
    ∃ found₁ found₂ b₁' b₂', b₁.cancel key₁ = .ok (found₁, b₁') ∧
      b₂.cancel key₂ = .ok (found₂, b₂') ∧
      Parallel cancelled label₁ label₂ b₁ b₂ [] b₁' b₂' := by
  obtain ⟨b₁', heq₁, hside₁, hkeeps₁, hscheduler₁, hpoisoned₁⟩ := cancel_side h.left key₁
  obtain ⟨b₂', heq₂, hside₂, hkeeps₂, hscheduler₂, hpoisoned₂⟩ := cancel_side h.right key₂
  have hwilling₁ := h.willing₁.keep hpoisoned₁ hscheduler₁
  have hwilling₂ := h.willing₂.keep hpoisoned₂ hscheduler₂
  have hmatched : Matched label₁ label₂ b₁' (spared cancelled label₁ (L₁.filter (·.key ≠ key₁)))
      b₂' (L₂.filter (·.key ≠ key₂)) := by
    rw [spared, List.filter_comm]
    refine h.matched.filter hkeeps₁.toSameSettings hkeeps₂.toSameSettings
      (fun v => decide (v.2 ≠ some request)) (fun e he => ?_) fun e he => ?_
    · rw [view, decide_eq_decide, ne_eq, ne_eq, hkey₁ e (List.mem_of_mem_filter he)]
    · rw [view, decide_eq_decide, ne_eq, ne_eq, hkey₂ e he]
  have hlacks := h.keep hkeeps₁ hkeeps₂ hwilling₁ hwilling₂ hside₁ hside₂ hmatched
  exact ⟨_, _, b₁', b₂', heq₁, heq₂,
    hlacks.parallel hkeeps₁.issued hkeeps₂.issued hscheduler₁ hscheduler₂⟩

/-- **A cancel in the second context** only. -/
theorem cancel_second (h : Lacks cancelled c label₁ label₂ b₁ L₁ b₂ L₂)
    {key₂ : RegistrationKey} {request : Nat}
    (hkey₂ : ∀ e ∈ L₂, label₂ e.number = some request ↔ e.key = key₂) :
    ∃ found b₂', b₂.cancel key₂ = .ok (found, b₂') ∧
      Parallel (request :: cancelled) label₁ label₂ b₁ b₂ [] b₁ b₂' := by
  obtain ⟨b₂', heq₂, hside₂, hkeeps₂, hscheduler₂, hpoisoned₂⟩ := cancel_side h.right key₂
  have hwilling₂ := h.willing₂.keep hpoisoned₂ hscheduler₂
  have hspared : spared (request :: cancelled) label₁ L₁ =
      (spared cancelled label₁ L₁).filter fun e => decide (label₁ e.number ≠ some request) := by
    rw [spared, spared, List.filter_filter]
    refine List.filter_congr fun e _ => ?_
    rw [Bool.eq_iff_iff, Bool.and_eq_true, spares_iff, spares_iff, decide_eq_true_iff,
      List.forall_mem_cons]
  have hmatched : Matched label₁ label₂ b₁ (spared (request :: cancelled) label₁ L₁) b₂'
      (L₂.filter (·.key ≠ key₂)) := by
    rw [hspared]
    refine h.matched.filter (.refl b₁) hkeeps₂.toSameSettings
      (fun v => decide (v.2 ≠ some request)) (fun _ _ => rfl) fun e he => ?_
    rw [view, decide_eq_decide, ne_eq, ne_eq, hkey₂ e he]
  have hlacks := h.keep (.refl b₁) hkeeps₂ h.willing₁ hwilling₂ h.left hside₂ hmatched
  exact ⟨_, b₂', heq₂, hlacks.parallel List.prefix_rfl hkeeps₂.issued rfl hscheduler₂⟩

/-- **A shutdown** of both leaves nothing in either. -/
theorem shutdown_along (h : Lacks cancelled c label₁ label₂ b₁ L₁ b₂ L₂) :
    ∃ count₁ count₂ b₁' b₂', b₁.shutdown = .ok (count₁, b₁') ∧ b₂.shutdown = .ok (count₂, b₂') ∧
      Parallel cancelled label₁ label₂ b₁ b₂ [] b₁' b₂' := by
  obtain ⟨b₁', heq₁, hside₁, hemptied₁⟩ := shutdown_side h.left
  obtain ⟨b₂', heq₂, hside₂, hemptied₂⟩ := shutdown_side h.right
  have hlacks : Lacks cancelled c label₁ label₂ b₁' [] b₂' [] := by
    refine ⟨hside₁, hside₂,
      h.matched.keep hemptied₁.toSameSettings hemptied₂.toSameSettings fun _ => rfl, ?_, ?_,
      h.willing₁.keep hemptied₁.poisoned hemptied₁.scheduler,
      h.willing₂.keep hemptied₂.poisoned hemptied₂.scheduler⟩
    · rw [hemptied₁.capacity, hemptied₂.capacity, h.capacity]
    · intro signal edge
      rw [hemptied₁.waiting, hemptied₂.waiting]
  exact ⟨_, _, b₁', b₂', heq₁, heq₂, hlacks.parallel hemptied₁.issued hemptied₂.issued
    hemptied₁.scheduler hemptied₂.scheduler⟩

/-! ### Reports -/

/-- What is handed over to the scheduler can be told from what the chosen holdings look like. -/
theorem map_tasks_fired (q : Demand SignalId × Option Nat → Bool) (v : Logic)
    (L : List SimHolding) :
    (fired label q v L).map (·.registration.tasks) =
      (((L.filter fun e => q (view label e)).map (view label)).filter
        fun w => w.1.edge.condition.accepts v).map (·.1.tasks) := by
  rw [fired, List.filter_map, List.map_map]
  rfl

/-- The holdings that fire, and are spared, are those that fire among the spared ones. -/
theorem spared_fired (q : Demand SignalId × Option Nat → Bool) (v : Logic) (L : List SimHolding) :
    spared cancelled label (fired label q v L) = fired label q v (spared cancelled label L) := by
  rw [spared, fired, List.filter_comm, List.filter_comm (q := fun e => q (view label e))]
  rfl

/-- **A report** to holdings that look the same, but for those that the second context lacks. -/
theorem Lacks.report (h : Lacks cancelled c label₁ label₂ b₁ L₁ b₂ L₂)
    {q : Demand SignalId × Option Nat → Bool} {v : Logic}
    (hreport₁ : Reports c' label₁ q v b₁ L₁ b₁') (hreport₂ : Reports c' label₂ q v b₂ L₂ b₂')
    (hchosen : ((spared cancelled label₁ L₁).filter fun e => q (view label₁ e)).map
        (view label₁) = (L₂.filter fun e => q (view label₂ e)).map (view label₂)) :
    Parallel cancelled label₁ label₂ b₁ b₂ ((fired label₁ q v L₁).map handOverOf) b₁' b₂' := by
  have hmatched : Matched label₁ label₂ b₁' (spared cancelled label₁
      (L₁.filter fun e => !(q (view label₁ e) && isSpent v e))) b₂'
      (L₂.filter fun e => !(q (view label₂ e) && isSpent v e)) := by
    rw [spared, List.filter_comm]
    exact h.matched.filter hreport₁.keeps.toSameSettings hreport₂.keeps.toSameSettings
      (fun w => !(q w && (w.1.edge.condition.accepts v && decide (w.1.mode = .oneShot))))
      (fun _ _ => rfl) fun _ _ => rfl
  have hlacks := h.keep hreport₁.keeps hreport₂.keeps hreport₁.willing hreport₂.willing
    hreport₁.side hreport₂.side hmatched
  refine ⟨⟨c', _, _, hlacks⟩, hreport₁.keeps.issued, hreport₂.keeps.issued, _, rfl,
    fun e he => ?_, hreport₁.resumed, ?_⟩
  · have hmem : e ∈ L₁ := List.mem_of_mem_filter (List.mem_of_mem_filter he)
    exact issued_getElem?_of_prefix hreport₁.keeps.issued
      (h.left.tracked.extra.1.numbered.issued_at e hmem)
  · rw [hreport₂.resumed, spared_fired, map_tasks_fired, map_tasks_fired, hchosen]

/-- **A report to the keys of the same request**. -/
theorem deliver_along (h : Lacks cancelled c label₁ label₂ b₁ L₁ b₂ L₂)
    {key₁ key₂ : RegistrationKey} {request : Nat}
    (hkey₁ : ∀ e ∈ L₁, label₁ e.number = some request ↔ e.key = key₁)
    (hkey₂ : ∀ e ∈ L₂, label₂ e.number = some request ↔ e.key = key₂) (value : Logic) :
    ∃ d₁ d₂ b₁' b₂', b₁.deliver key₁ value = .done d₁ b₁' ∧
      b₂.deliver key₂ value = .done d₂ b₂' ∧
      Parallel cancelled label₁ label₂ b₁ b₂
        ((b₁.woken key₁ value).toList.map fun r => ⟨key₁, r.tasks⟩) b₁' b₂' := by
  obtain ⟨d₁, b₁', heq₁, hreport₁, hgiven⟩ :=
    deliver_labelled_fires h.left h.willing₁ hkey₁ value
  obtain ⟨d₂, b₂', heq₂, hreport₂, -⟩ := deliver_labelled_fires h.right h.willing₂ hkey₂ value
  rw [h.observe_eq] at hreport₂
  rw [hgiven]
  refine ⟨d₁, d₂, b₁', b₂', heq₁, heq₂, h.report hreport₁ hreport₂ ?_⟩
  -- a request has subscribed at most one holding, so that there is nothing to put in order
  have hperm :
      (((spared cancelled label₁ L₁).filter fun e => isOf request (view label₁ e)).map
        (view label₁)).Perm
        ((L₂.filter fun e => isOf request (view label₂ e)).map (view label₂)) := by
    have hviews := h.matched.perm.filter (isOf request)
    rwa [List.filter_map, List.filter_map] at hviews
  obtain ⟨e, -, -, hone⟩ | ⟨-, hnone⟩ := filter_isOf h.right hkey₂
  · rw [hone] at hperm ⊢
    exact List.perm_singleton.mp hperm
  · rw [hnone] at hperm ⊢
    exact List.perm_nil.mp hperm

/-- **A change of value** is reported to the holdings on the signal. -/
theorem applyChange_along (h : Lacks cancelled c label₁ label₂ b₁ L₁ b₂ L₂) (signal : SignalId)
    (value : Logic) {E : MuxError → Prop} :
    GoAlong E (fun _ _ => True)
      (Parallel cancelled label₁ label₂ b₁ b₂
        ((b₁.changeCalls signal value).filterMap Call.handOver))
      (b₁.applyChange signal value) (b₂.applyChange signal value) := by
  have hsignals := h.sameWorld.1.signals
  have hsignal : b₁.native.signal? signal = b₂.native.signal? signal := by
    rw [Sim.signal?, hsignals, Sim.signal?]
  cases hbefore : b₂.native.signal? signal with
  | none =>
    rw [applyChange_eq, applyChange_eq, hsignal, hbefore, missing, missing, hsignals]
    exact .inl ⟨_, rfl, rfl⟩
  | some before =>
    by_cases hsame : before.value = value
    · rw [applyChange_eq, applyChange_eq, changeCalls, hsignal, hbefore]
      simp only [if_pos hsame]
      exact .inr <| .inr ⟨(), (), b₁, b₂, rfl, rfl, trivial, h.refl⟩
    · obtain ⟨b₁', heq₁, hreport₁, hgiven⟩ :=
        applyChange_fires h.left h.willing₁ (hsignal.trans hbefore) hsame
      obtain ⟨b₂', heq₂, hreport₂, -⟩ := applyChange_fires h.right h.willing₂ hbefore hsame
      rw [h.observe_eq] at hreport₂
      rw [hgiven]
      exact .inr <| .inr ⟨(), (), b₁', b₂', heq₁, heq₂, trivial,
        h.report hreport₁ hreport₂ (h.matched.holdings signal)⟩

/-- What is handed over in some stages. -/
def handOversIn (stages : List (Stage (SchedulerRecord T))) : List HandOver :=
  (stages.flatMap (·.calls)).filterMap Call.handOver

theorem handOversIn_cons (stage : Stage (SchedulerRecord T))
    (rest : List (Stage (SchedulerRecord T))) : handOversIn (stage :: rest) =
      stage.calls.filterMap Call.handOver ++ handOversIn rest := by
  rw [handOversIn, List.flatMap_cons, List.filterMap_append, handOversIn]

theorem handOversIn_append (first rest : List (Stage (SchedulerRecord T))) :
    handOversIn (first ++ rest) = handOversIn first ++ handOversIn rest := by
  rw [handOversIn, List.flatMap_append, List.filterMap_append, handOversIn, handOversIn]

/-- Events from the head of the queue are applied one after another. -/
theorem applyEvents_along {E : MuxError → Prop} (es : List Event) :
    ∀ (c : Sim) (b₁ b₂ : SimBench (SchedulerRecord T)) (L₁ L₂ : List SimHolding),
      Lacks cancelled c label₁ label₂ b₁ L₁ b₂ L₂ →
      GoAlong E (fun _ _ => True)
        (Parallel cancelled label₁ label₂ b₁ b₂ (handOversIn (eventStages es b₁)))
        (applyEvents es b₁) (applyEvents es b₂) := by
  induction es with
  | nil => exact fun c b₁ b₂ L₁ L₂ h => .inr <| .inr ⟨(), (), b₁, b₂, rfl, rfl, trivial, h.refl⟩
  | cons e rest ih =>
    intro c b₁ b₂ L₁ L₂ h
    have htail : Parallel cancelled label₁ label₂ b₁ b₂ [] b₁.popped b₂.popped :=
      h.parallel_onSim plain_tail
    have hpopped : Lacks cancelled _ label₁ label₂ b₁.popped L₁ b₂.popped L₂ := h.onSim plain_tail
    rw [applyEvents_cons, applyEvents_cons]
    refine (applyChange_along hpopped e.signal e.value).andThen fun _ _ d₁ d₂ heq₁ _ hchange => ?_
    obtain ⟨c', M₁, M₂, hlacks⟩ := hchange.lacks
    have hgiven : handOversIn (eventStages (e :: rest) b₁) =
        (b₁.popped.changeCalls e.signal e.value).filterMap Call.handOver ++
          handOversIn (eventStages rest d₁) := by
      rw [eventStages, heq₁]
      exact handOversIn_cons _ _
    rw [hgiven]
    exact ((ih c' d₁ d₂ M₁ M₂ hlacks).after (htail.trans hchange))

/-! ### Steps of the simulator -/

/-- What comes after the flush of a step. -/
theorem advance_along (h : Lacks cancelled c label₁ label₂ b₁ L₁ b₂ L₂) :
    GoAlong SimError.IsExhausted Eq
      (Parallel cancelled label₁ label₂ b₁ b₂ (handOversIn b₁.advanceStages)) b₁.advance
      b₂.advance := by
  rw [advance, advance, advanceStages, h.nextTime?_eq]
  cases b₂.native.nextTime? with
  | none => exact .inr <| .inr ⟨_, _, b₁, b₂, rfl, rfl, rfl, h.refl⟩
  | some now =>
    have hmoved := h.parallel_onSim (plain_now now)
    dsimp only
    rw [h.sameWorld.1.queue]
    obtain ⟨f, heq₁, heq₂⟩ | ⟨error, d₁, heq₁, herror⟩ |
      ⟨_, _, d₁, d₂, heq₁, heq₂, -, hevents⟩ :=
        applyEvents_along (E := MuxError.IsExhausted) (b₂.native.queue.takeWhile (·.time = now)) _
          _ _ _ _ (h.onSim (plain_now now))
    · rw [heq₁, heq₂]
      exact .inl ⟨f, rfl, rfl⟩
    · rw [heq₁]
      exact .inr <| .inl ⟨.mux error, d₁, rfl, herror⟩
    · rw [heq₁, heq₂]
      obtain ⟨c', M₁, M₂, hlacks⟩ := hevents.lacks
      have hall := (hmoved.trans hevents).trans (hlacks.parallel_onSim plain_steps)
      rw [List.append_nil] at hall
      exact .inr <| .inr ⟨_, _, _, _, rfl, rfl, rfl, hall⟩

/-- **A step** of both. -/
theorem step_along (h : Lacks cancelled c label₁ label₂ b₁ L₁ b₂ L₂)
    (order₁ order₂ : VisitOrder SignalId) :
    GoAlong SimError.IsExhausted Eq
      (Parallel cancelled label₁ label₂ b₁ b₂ (handOversIn (b₁.stepStages order₁)))
      (b₁.step order₁) (b₂.step order₂) := by
  rw [step_eq, step_eq]
  refine (flush_along h order₁ order₂).mapError.andThen fun summary _ f₁ f₂ heq₁ _ hflushed => ?_
  obtain ⟨c', M₁, M₂, hlacks⟩ := hflushed.lacks
  have hgiven : handOversIn (b₁.stepStages order₁) = handOversIn f₁.advanceStages := by
    rw [stepStages, Outcome.mapError_eq_done heq₁]
    exact handOversIn_cons _ _
  rw [hgiven]
  exact (advance_along hlacks).after hflushed

/-- Steps until the queue is empty. -/
theorem runSteps_along (n : Nat) :
    ∀ (orders₁ orders₂ : Nat → VisitOrder SignalId) (c : Sim)
      (b₁ b₂ : SimBench (SchedulerRecord T)) (L₁ L₂ : List SimHolding),
      Lacks cancelled c label₁ label₂ b₁ L₁ b₂ L₂ →
      GoAlong SimError.IsExhausted (fun _ _ => True)
        (Parallel cancelled label₁ label₂ b₁ b₂ (handOversIn (runStepsStages n orders₁ b₁)))
        (runSteps n orders₁ b₁) (runSteps n orders₂ b₂) := by
  induction n with
  | zero =>
    intro orders₁ orders₂ c b₁ b₂ L₁ L₂ h
    refine (step_along h (orders₁ 0) (orders₂ 0)).andThen fun _ _ d₁ d₂ _ _ hstep => ?_
    exact .inr <| .inr ⟨(), (), d₁, d₂, rfl, rfl, trivial, hstep⟩
  | succ n ih =>
    intro orders₁ orders₂ c b₁ b₂ L₁ L₂ h
    rw [runSteps, runSteps, runStepsStages, handOversIn_append]
    obtain ⟨f, heq₁, heq₂⟩ | ⟨error, d₁, heq₁, herror⟩ |
      ⟨result, _, d₁, d₂, heq₁, heq₂, rfl, hstep⟩ := step_along h (orders₁ 0) (orders₂ 0)
    · rw [heq₁, heq₂]
      exact .inl ⟨f, rfl, rfl⟩
    · rw [heq₁]
      exact .inr <| .inl ⟨error, d₁, rfl, herror⟩
    · -- both steps have found an event, or neither has
      rw [heq₁, heq₂]
      cases result with
      | done =>
        have hnone : handOversIn (T := T) [] = [] := rfl
        refine .inr <| .inr ⟨(), (), d₁, d₂, rfl, rfl, trivial, ?_⟩
        rw [hnone, List.append_nil]
        exact hstep
      | continued =>
        obtain ⟨c', M₁, M₂, hlacks⟩ := hstep.lacks
        exact (ih _ _ c' d₁ d₂ M₁ M₂ hlacks).after hstep

/-- Steps up to a limit. -/
theorem runStepsUntil_along (limit : SimTime) (n : Nat) :
    ∀ (orders₁ orders₂ : Nat → VisitOrder SignalId) (c : Sim)
      (b₁ b₂ : SimBench (SchedulerRecord T)) (L₁ L₂ : List SimHolding),
      Lacks cancelled c label₁ label₂ b₁ L₁ b₂ L₂ →
      GoAlong SimError.IsExhausted (fun _ _ => True)
        (Parallel cancelled label₁ label₂ b₁ b₂
          (handOversIn (runStepsUntilStages limit n orders₁ b₁)))
        (runStepsUntil limit n orders₁ b₁) (runStepsUntil limit n orders₂ b₂) := by
  -- the flush after the last step
  have hlast : ∀ (order₁ order₂ : VisitOrder SignalId) (c : Sim)
      (b₁ b₂ : SimBench (SchedulerRecord T)) (L₁ L₂ : List SimHolding),
      Lacks cancelled c label₁ label₂ b₁ L₁ b₂ L₂ →
      GoAlong SimError.IsExhausted (fun _ _ => True) (Parallel cancelled label₁ label₂ b₁ b₂ [])
        (((b₁.flush order₁).mapError SimError.mux).andThen fun _ b => .done () b)
        (((b₂.flush order₂).mapError SimError.mux).andThen fun _ b => .done () b) :=
    fun order₁ order₂ c b₁ b₂ L₁ L₂ h => (flush_along h order₁ order₂).mapError.andThen
      fun _ _ d₁ d₂ _ _ hflush => .inr <| .inr ⟨(), (), d₁, d₂, rfl, rfl, trivial, hflush⟩
  induction n with
  | zero => exact fun orders₁ orders₂ => hlast (orders₁ 0) (orders₂ 0)
  | succ n ih =>
    intro orders₁ orders₂ c b₁ b₂ L₁ L₂ h
    rw [runStepsUntil, runStepsUntil, runStepsUntilStages, h.nextTime?_eq]
    by_cases hnext : b₂.native.nextTime?.any (·.fs ≤ limit.fs) = true
    · rw [if_pos hnext, if_pos hnext, if_pos hnext, handOversIn_append]
      obtain ⟨f, heq₁, heq₂⟩ | ⟨error, d₁, heq₁, herror⟩ |
        ⟨_, _, d₁, d₂, heq₁, heq₂, -, hstep⟩ := step_along h (orders₁ 0) (orders₂ 0)
      · rw [heq₁, heq₂]
        exact .inl ⟨f, rfl, rfl⟩
      · rw [heq₁]
        exact .inr <| .inl ⟨error, d₁, rfl, herror⟩
      · obtain ⟨c', M₁, M₂, hlacks⟩ := hstep.lacks
        rw [heq₁, heq₂]
        exact (ih _ _ c' d₁ d₂ M₁ M₂ hlacks).after hstep
    · rw [if_neg hnext, if_neg hnext, if_neg hnext]
      exact hlast (orders₁ 0) (orders₂ 0) c b₁ b₂ L₁ L₂ h

/-- **A run** of both. -/
theorem run_along (h : Lacks cancelled c label₁ label₂ b₁ L₁ b₂ L₂)
    (orders₁ orders₂ : Nat → VisitOrder SignalId) :
    GoAlong SimError.IsExhausted (fun _ _ => True)
      (Parallel cancelled label₁ label₂ b₁ b₂ (handOversIn (b₁.runStages orders₁)))
      (b₁.run orders₁) (b₂.run orders₂) := by
  rw [run, run, runStages, h.sameWorld.1.queue]
  refine (runSteps_along b₂.native.queue.length orders₁ orders₂ c b₁ b₂ L₁ L₂ h).andThen
    fun _ _ d₁ d₂ _ _ hsteps => ?_
  obtain ⟨c', M₁, M₂, hlacks⟩ := hsteps.lacks
  -- the line that tells of the end issues no key
  have hcore₁ : SameCore d₁ (d₁.note (.finished d₁.native.now d₁.native.steps
    d₁.native.delivered)) := sameCore_note d₁ (by simp)
  have hcore₂ : SameCore d₂ (d₂.note (.finished d₂.native.now d₂.native.steps
    d₂.native.delivered)) := sameCore_note d₂ (by simp)
  have hall := hsteps.trans (hlacks.parallel_note hcore₁ hcore₂)
  rw [List.append_nil] at hall
  exact .inr <| .inr ⟨_, _, _, _, rfl, rfl, trivial, hall⟩

theorem runUntil_along (h : Lacks cancelled c label₁ label₂ b₁ L₁ b₂ L₂)
    (orders₁ orders₂ : Nat → VisitOrder SignalId) (limit : SimTime) :
    GoAlong SimError.IsExhausted (fun _ _ => True)
      (Parallel cancelled label₁ label₂ b₁ b₂ (handOversIn (b₁.runUntilStages orders₁ limit)))
      (b₁.runUntil orders₁ limit) (b₂.runUntil orders₂ limit) := by
  rw [runUntil, runUntil, runUntilStages, h.sameWorld.1.queue]
  refine (runStepsUntil_along limit b₂.native.queue.length orders₁ orders₂ c b₁ b₂ L₁ L₂ h).andThen
    fun _ _ d₁ d₂ _ _ hsteps => ?_
  exact .inr <| .inr ⟨_, _, d₁, d₂, rfl, rfl, trivial, hsteps⟩

end Scheduler

end Bench

end EdgeWait
