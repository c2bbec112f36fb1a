/-
Two contexts that are alike.

Two contexts may have been brought to their states in different ways: their waits have been visited
and mixed in different orders, and their ids come from pools in different orders.  They are alike
when they hold, on every signal and in the same order, registrations for the same demands.  A
poisoned context is like any other one with as many registrations.

* `Side`, `Twins`, `Matched`, `Alike` — what is asked of each of them, of both even if they are
  poisoned, of both on every signal, and all of it;
* `Joint`, `Moved` — the same tasks wait in both as well, and go on doing so;
* `Agree` — two outcomes are of the same kind.

Design notes: keys and ids of the two have nothing to do with each other.  What names a registration
in both is the request that has subscribed it, which is a label on the number of the registration.
Registrations that a flush has made have no label, and after a flush that has exhausted the pool
they may be different ones; but there are as many of them, because both pools are empty then.
-/
import EdgeWait.Proofs.Transparency

namespace EdgeWait

open Sim

/-! ### A simulator that hosts a context -/

namespace Sim

/-- A simulator serves the roster of a context, and agrees with another one in its time, its events,
its signals and its steps. -/
def Hosts (c : Sim) (L : List SimHolding) (arena : Arena SignalId) (s : Sim)
    (issued : List RegistrationKey) : Prop :=
  Carries c L arena s issued ∧ s.steps = c.steps

theorem tracking_hosts (c : Sim) : Tracking (Hosts c) where
  opened := by
    intro L arena s issued key handle s' arena' r h harena hroom hfresh hinsert hsubscribe
    refine ⟨(tracking_carries c).opened h.1 harena hroom hfresh hinsert hsubscribe, ?_⟩
    obtain ⟨-, rfl⟩ := Prod.mk.inj hsubscribe
    exact h.2
  closed := by
    intro L arena s issued s' e h hkeys he hget hunsubscribe
    refine ⟨(tracking_carries c).closed h.1 hkeys he hget hunsubscribe, ?_⟩
    obtain rfl := Except.ok.inj ((h.1.serves.unsubscribe_eq he).symm.trans hunsubscribe)
    exact h.2

theorem not_refuses_of_hosts {c : Sim} {base : List RegistrationKey} {L₀ : List SimHolding}
    {capacity : Nat} {f : Fault} : ¬ Bench.Refuses (Since base L₀ (Hosts c)) capacity f := by
  rintro ⟨L, arena, s, issued, e, he, ⟨h, hsize⟩, hrefuses⟩
  exact not_refuses_of_serves ⟨L, arena, s, issued, e, he, ⟨h.1.1.serves, hsize⟩, hrefuses⟩

/-- A change of the simulator that leaves the callbacks alone, and that comes to the same on
simulators that agree. -/
structure Plain (f : Sim → Sim) : Prop where
  callbacks : ∀ s, (f s).callbacks = s.callbacks
  nextOrder : ∀ s, (f s).nextOrder = s.nextOrder
  agrees : ∀ {c s}, SameWorld c s → s.steps = c.steps →
    SameWorld (f c) (f s) ∧ (f s).steps = (f c).steps

theorem plain_delivered : Plain fun s => { s with delivered := s.delivered + 1 } where
  callbacks _ := rfl
  nextOrder _ := rfl
  agrees h hsteps := ⟨⟨h.now, h.queue, h.nextSeq, h.signals⟩, hsteps⟩

theorem plain_steps : Plain fun s => { s with steps := s.steps + 1 } where
  callbacks _ := rfl
  nextOrder _ := rfl
  agrees h hsteps := ⟨⟨h.now, h.queue, h.nextSeq, h.signals⟩, by rw [hsteps]⟩

theorem plain_now (now : SimTime) : Plain fun s => { s with now } where
  callbacks _ := rfl
  nextOrder _ := rfl
  agrees h hsteps := ⟨⟨rfl, h.queue, h.nextSeq, h.signals⟩, hsteps⟩

theorem plain_tail : Plain fun s => { s with queue := s.queue.tail } where
  callbacks _ := rfl
  nextOrder _ := rfl
  agrees h hsteps := ⟨⟨h.now, by rw [h.queue], h.nextSeq, h.signals⟩, hsteps⟩

theorem plain_withValue (signal : SignalId) (value : Logic) :
    Plain fun s => s.withValue signal value where
  callbacks _ := rfl
  nextOrder _ := rfl
  agrees hworld hsteps := ⟨hworld.withValue signal value, hsteps⟩

theorem plain_schedule (time : SimTime) (signal : SignalId) (value : Logic) :
    Plain fun s => (s.schedule time signal value).toOption.getD s where
  callbacks s := by
    rw [schedule]
    split <;> rfl
  nextOrder s := by
    rw [schedule]
    split <;> rfl
  agrees := by
    intro c s hworld hsteps
    by_cases hpast : time.fs < c.now.fs
    · have hpast' : time.fs < s.now.fs := hworld.now ▸ hpast
      simp only [schedule, if_pos hpast, if_pos hpast']
      exact ⟨hworld, hsteps⟩
    · have hpast' : ¬ time.fs < s.now.fs := hworld.now ▸ hpast
      simp only [schedule, if_neg hpast, if_neg hpast', hworld.queue, hworld.nextSeq]
      exact ⟨⟨hworld.now, rfl, rfl, hworld.signals⟩, hsteps⟩

end Sim

namespace Bench

variable {T : Type}

/-! ### Contexts that are alike -/

/-- What can be said of a holding without naming its key, its id or its handle. -/
def view (label : Nat → Option Nat) (e : SimHolding) : Demand SignalId × Option Nat :=
  (e.registration.demand, label e.number)

/-- One of two contexts that are compared: its roster is `L`, its simulator agrees with `c`, and
`label` gives the requests that have subscribed its holdings. -/
structure Side (c : Sim) (label : Nat → Option Nat) (b : SimBench (SchedulerRecord T))
    (L : List SimHolding) : Prop where
  tracked : b.Tracked (Hosts c) L
  unlabelled : ∀ m, b.log.issued.length ≤ m → label m = none

/-- What two contexts have in common, even if they are poisoned. -/
structure Twins (c : Sim) (label₁ label₂ : Nat → Option Nat) (b₁ : SimBench (SchedulerRecord T))
    (L₁ : List SimHolding) (b₂ : SimBench (SchedulerRecord T)) (L₂ : List SimHolding) : Prop where
  left : Side c label₁ b₁ L₁
  right : Side c label₂ b₂ L₂
  scheduler : b₁.scheduler = b₂.scheduler
  capacity : b₁.mux.subscriptions.pool.capacity = b₂.mux.subscriptions.pool.capacity
  labels : (L₁.map fun e => label₁ e.number).Perm (L₂.map fun e => label₂ e.number)

/-- Two contexts treat and hold the same on every signal. -/
structure Matched (label₁ label₂ : Nat → Option Nat) (b₁ : SimBench (SchedulerRecord T))
    (L₁ : List SimHolding) (b₂ : SimBench (SchedulerRecord T)) (L₂ : List SimHolding) : Prop where
  policy : b₁.mux.policy = b₂.mux.policy
  unknownAsZero : b₁.mux.unknownAsZero = b₂.mux.unknownAsZero
  holdings : ∀ signal, (L₁.filter (·.registration.signal = signal)).map (view label₁) =
    (L₂.filter (·.registration.signal = signal)).map (view label₂)

/-- Two contexts are alike, but for the waits that are pending in them. -/
structure Alike (c : Sim) (label₁ label₂ : Nat → Option Nat) (b₁ : SimBench (SchedulerRecord T))
    (L₁ : List SimHolding) (b₂ : SimBench (SchedulerRecord T)) (L₂ : List SimHolding) : Prop
    extends Twins c label₁ label₂ b₁ L₁ b₂ L₂ where
  poisoned : b₁.mux.isPoisoned = b₂.mux.isPoisoned
  matched : b₁.mux.isPoisoned = false → Matched label₁ label₂ b₁ L₁ b₂ L₂

/-- The same tasks wait in both contexts, list by list. -/
def SameWaiting (b₁ b₂ : SimBench (SchedulerRecord T)) : Prop :=
  ∀ signal edge, b₁.mux.pending.waiting signal edge = b₂.mux.pending.waiting signal edge

/-- Two contexts are alike, and the same tasks wait in both unless they are poisoned. -/
structure Joint (label₁ label₂ : Nat → Option Nat) (b₁ b₂ : SimBench (SchedulerRecord T)) :
    Prop where
  alike : ∃ c L₁ L₂, Alike c label₁ label₂ b₁ L₁ b₂ L₂
  waiting : b₁.mux.isPoisoned = false → SameWaiting b₁ b₂

/-- From `b₁` and `b₂` two contexts have come to `b₁'` and `b₂'`, where they are alike. -/
structure Moved (label₁ label₂ : Nat → Option Nat) (b₁ b₂ b₁' b₂' : SimBench (SchedulerRecord T)) :
    Prop where
  joint : Joint label₁ label₂ b₁' b₂'
  issued₁ : b₁.log.issued <+: b₁'.log.issued
  issued₂ : b₂.log.issued <+: b₂'.log.issued

/-- No operation changes the settings of a context. -/
structure SameSettings (b b' : SimBench (SchedulerRecord T)) : Prop where
  policy : b'.mux.policy = b.mux.policy
  unknownAsZero : b'.mux.unknownAsZero = b.mux.unknownAsZero
  capacity : b'.mux.subscriptions.pool.capacity = b.mux.subscriptions.pool.capacity

/-- What an operation that does not touch the waits leaves as it is. -/
structure Keeps (b b' : SimBench (SchedulerRecord T)) : Prop extends SameSettings b b' where
  pending : b'.mux.pending = b.mux.pending
  poisoned : b.mux.isPoisoned = true → b'.mux.isPoisoned = true
  issued : b.log.issued <+: b'.log.issued

/-- Two states differ only in their waits, their counters and what their logs tell of them. -/
structure SameCore (b b' : SimBench (SchedulerRecord T)) : Prop where
  policy : b'.mux.policy = b.mux.policy
  unknownAsZero : b'.mux.unknownAsZero = b.mux.unknownAsZero
  subscriptions : b'.mux.subscriptions = b.mux.subscriptions
  poisoned : b'.mux.isPoisoned = b.mux.isPoisoned
  native : b'.native = b.native
  scheduler : b'.scheduler = b.scheduler
  issued : b'.log.issued = b.log.issued

variable {c c' : Sim} {label label₁ label₂ label₁' label₂' : Nat → Option Nat}
  {b b' b'' b₁ b₂ b₁' b₂' b₁'' b₂'' : SimBench (SchedulerRecord T)}
  {L new L₁ L₂ L₁' L₂' new₁ new₂ : List SimHolding}

theorem Moved.refl (h : Joint label₁ label₂ b₁ b₂) : Moved label₁ label₂ b₁ b₂ b₁ b₂ :=
  ⟨h, List.prefix_rfl, List.prefix_rfl⟩

theorem Moved.trans (h : Moved label₁ label₂ b₁ b₂ b₁' b₂')
    (h' : Moved label₁ label₂ b₁' b₂' b₁'' b₂'') : Moved label₁ label₂ b₁ b₂ b₁'' b₂'' :=
  ⟨h'.joint, h.issued₁.trans h'.issued₁, h.issued₂.trans h'.issued₂⟩

theorem SameSettings.refl (b : SimBench (SchedulerRecord T)) : SameSettings b b :=
  ⟨rfl, rfl, rfl⟩

theorem SameSettings.trans (h : SameSettings b b') (h' : SameSettings b' b'') :
    SameSettings b b'' where
  policy := h'.policy.trans h.policy
  unknownAsZero := h'.unknownAsZero.trans h.unknownAsZero
  capacity := h'.capacity.trans h.capacity

theorem Frame.sameSettings (h : Frame b b') : SameSettings b b' :=
  ⟨h.policy, h.unknownAsZero, h.capacity⟩

theorem SameCore.sameSettings (h : SameCore b b') : SameSettings b b' :=
  ⟨h.policy, h.unknownAsZero, by rw [h.subscriptions]⟩

theorem Keeps.refl (b : SimBench (SchedulerRecord T)) : Keeps b b :=
  ⟨.refl b, rfl, id, List.prefix_rfl⟩

theorem Keeps.trans (h : Keeps b b') (h' : Keeps b' b'') : Keeps b b'' where
  toSameSettings := h.toSameSettings.trans h'.toSameSettings
  pending := h'.pending.trans h.pending
  poisoned := h'.poisoned ∘ h.poisoned
  issued := h.issued.trans h'.issued

/-- A context that has not been poisoned before may be poisoned after. -/
theorem Keeps.of_frame (h : Frame b b') (hlive : b.mux.isPoisoned = false)
    (hpending : b'.mux.pending = b.mux.pending) (hissued : b.log.issued <+: b'.log.issued) :
    Keeps b b' := by
  refine ⟨h.sameSettings, hpending, fun hpoisoned => ?_, hissued⟩
  rw [hlive] at hpoisoned
  cases hpoisoned

theorem Keeps.onSim (b : SimBench (SchedulerRecord T)) (f : Sim → Sim) : Keeps b (b.onSim f) :=
  ⟨⟨rfl, rfl, rfl⟩, rfl, id, List.prefix_rfl⟩

/-- Changes of the simulator are none of the context. -/
theorem Keeps.of_onSim {f : Sim → Sim} (h : Keeps (b.onSim f) b') : Keeps b b' :=
  (Keeps.onSim b f).trans h

theorem Keeps.observe_eq (h : Keeps b b') (value : Logic) :
    b'.mux.observe value = b.mux.observe value := by
  rw [Mux.observe, h.unknownAsZero, Mux.observe]

theorem SameCore.refl (b : SimBench (SchedulerRecord T)) : SameCore b b :=
  ⟨rfl, rfl, rfl, rfl, rfl, rfl, rfl⟩

/-- A line of the log that issues no key does not matter. -/
theorem sameCore_note (b : SimBench (SchedulerRecord T)) {entry : LogEntry}
    (hentry : ∀ key id signal edge tasks, entry ≠ .registered key id signal edge tasks) :
    SameCore b (b.note entry) :=
  ⟨rfl, rfl, rfl, rfl, rfl, rfl, Log.issued_push hentry⟩

theorem Side.unlabelled_of_prefix (h : Side c label b L)
    (hissued : b.log.issued <+: b'.log.issued) : ∀ m, b'.log.issued.length ≤ m → label m = none :=
  fun m hm => h.unlabelled m (Nat.le_trans hissued.length_le hm)

theorem Side.congr (h : Side c label b L) (hcore : SameCore b b') : Side c label b' L := by
  refine ⟨h.tracked.congr hcore.subscriptions hcore.native hcore.issued, ?_⟩
  rw [hcore.issued]
  exact h.unlabelled

theorem Tracked.carries (h : b.Tracked (Hosts c) L) : b.Tracked (Carries c) L :=
  ⟨h.roster, h.extra.1⟩

theorem Side.onSim (h : Side c label b L) {f : Sim → Sim} (hf : Plain f) :
    Side (f c) label (b.onSim f) L := by
  have hcarries := h.tracked.carries
  obtain ⟨hworld, hsteps⟩ := hf.agrees hcarries.extra.world h.tracked.extra.2
  have hcarries' := hcarries.onSim (hf.callbacks _) (hf.nextOrder _) hworld
  exact ⟨⟨hcarries'.roster, hcarries'.extra, hsteps⟩, h.unlabelled⟩

/-- The simulators of both sides agree. -/
theorem Side.sameWorld (h₁ : Side c label₁ b₁ L₁) (h₂ : Side c label₂ b₂ L₂) :
    SameWorld b₂.native b₁.native ∧ b₁.native.steps = b₂.native.steps := by
  obtain ⟨hcarries₁, hsteps₁⟩ := h₁.tracked.extra
  obtain ⟨hcarries₂, hsteps₂⟩ := h₂.tracked.extra
  have hworld₁ := hcarries₁.world
  have hworld₂ := hcarries₂.world
  exact ⟨⟨hworld₁.now.trans hworld₂.now.symm, hworld₁.queue.trans hworld₂.queue.symm,
    hworld₁.nextSeq.trans hworld₂.nextSeq.symm, hworld₁.signals.trans hworld₂.signals.symm⟩,
    hsteps₁.trans hsteps₂.symm⟩

theorem Twins.length_eq (h : Twins c label₁ label₂ b₁ L₁ b₂ L₂) : L₁.length = L₂.length := by
  simpa using h.labels.length_eq

/-- Two contexts go on being twins, when they have made the same calls. -/
theorem Twins.keep (h : Twins c label₁ label₂ b₁ L₁ b₂ L₂) (hsame₁ : SameSettings b₁ b₁')
    (hsame₂ : SameSettings b₂ b₂') (hside₁ : Side c' label₁' b₁' L₁')
    (hside₂ : Side c' label₂' b₂' L₂') (hscheduler : b₁'.scheduler = b₂'.scheduler)
    (hlabels : (L₁'.map fun e => label₁' e.number).Perm (L₂'.map fun e => label₂' e.number)) :
    Twins c' label₁' label₂' b₁' L₁' b₂' L₂' :=
  ⟨hside₁, hside₂, hscheduler, by rw [hsame₁.capacity, hsame₂.capacity, h.capacity], hlabels⟩

theorem Twins.onSim (h : Twins c label₁ label₂ b₁ L₁ b₂ L₂) {f : Sim → Sim} (hf : Plain f) :
    Twins (f c) label₁ label₂ (b₁.onSim f) L₁ (b₂.onSim f) L₂ :=
  ⟨h.left.onSim hf, h.right.onSim hf, h.scheduler, h.capacity, h.labels⟩

theorem Twins.alike_of_poisoned (h : Twins c label₁ label₂ b₁ L₁ b₂ L₂)
    (hpoisoned₁ : b₁.mux.isPoisoned = true) (hpoisoned₂ : b₂.mux.isPoisoned = true) :
    Alike c label₁ label₂ b₁ L₁ b₂ L₂ := by
  refine ⟨h, hpoisoned₁.trans hpoisoned₂.symm, fun hlive => ?_⟩
  rw [hpoisoned₁] at hlive
  cases hlive

/-- Nothing more is asked of two contexts that are poisoned. -/
theorem Twins.joint_of_poisoned (h : Twins c label₁ label₂ b₁ L₁ b₂ L₂)
    (hpoisoned₁ : b₁.mux.isPoisoned = true) (hpoisoned₂ : b₂.mux.isPoisoned = true) :
    Joint label₁ label₂ b₁ b₂ := by
  refine ⟨⟨c, L₁, L₂, h.alike_of_poisoned hpoisoned₁ hpoisoned₂⟩, fun hlive => ?_⟩
  rw [hpoisoned₁] at hlive
  cases hlive

/-- Two contexts go on being matched, when they hold the same on every signal. -/
theorem Matched.keep (h : Matched label₁ label₂ b₁ L₁ b₂ L₂) (hsame₁ : SameSettings b₁ b₁')
    (hsame₂ : SameSettings b₂ b₂')
    (hholdings : ∀ signal, (L₁'.filter (·.registration.signal = signal)).map (view label₁') =
      (L₂'.filter (·.registration.signal = signal)).map (view label₂')) :
    Matched label₁' label₂' b₁' L₁' b₂' L₂' := by
  refine ⟨?_, ?_, hholdings⟩
  · rw [hsame₁.policy, hsame₂.policy, h.policy]
  · rw [hsame₁.unknownAsZero, hsame₂.unknownAsZero, h.unknownAsZero]

theorem Alike.congr (h : Alike c label₁ label₂ b₁ L₁ b₂ L₂) (hcore₁ : SameCore b₁ b₁')
    (hcore₂ : SameCore b₂ b₂') : Alike c label₁ label₂ b₁' L₁ b₂' L₂ := by
  have hsame₁ := hcore₁.sameSettings
  have hsame₂ := hcore₂.sameSettings
  refine ⟨h.toTwins.keep hsame₁ hsame₂ (h.left.congr hcore₁) (h.right.congr hcore₂) ?_ h.labels,
    ?_, fun hlive => ?_⟩
  · rw [hcore₁.scheduler, hcore₂.scheduler, h.scheduler]
  · rw [hcore₁.poisoned, hcore₂.poisoned, h.poisoned]
  · have hmatched := h.matched (hcore₁.poisoned ▸ hlive)
    exact hmatched.keep hsame₁ hsame₂ hmatched.holdings

theorem Alike.onSim (h : Alike c label₁ label₂ b₁ L₁ b₂ L₂) {f : Sim → Sim} (hf : Plain f) :
    Alike (f c) label₁ label₂ (b₁.onSim f) L₁ (b₂.onSim f) L₂ := by
  refine ⟨h.toTwins.onSim hf, h.poisoned, fun hlive => ?_⟩
  have hmatched := h.matched hlive
  exact ⟨hmatched.policy, hmatched.unknownAsZero, hmatched.holdings⟩

theorem Joint.onSim (h : Joint label₁ label₂ b₁ b₂) {f : Sim → Sim} (hf : Plain f) :
    Moved label₁ label₂ b₁ b₂ (b₁.onSim f) (b₂.onSim f) := by
  obtain ⟨⟨c, L₁, L₂, halike⟩, hwaiting⟩ := h
  exact ⟨⟨⟨f c, L₁, L₂, halike.onSim hf⟩, hwaiting⟩, List.prefix_rfl, List.prefix_rfl⟩

/-! ### Outcomes that agree -/

/-- Two outcomes agree: both are answers, related by `R` in states related by `D`, or both are the
same error, in states related by `E`, or both are the same fault, one of the faults `F`. -/
def Agree {ε α S : Type} (F : Fault → Prop) (R : α → α → Prop) (D E : S → S → Prop) :
    Outcome ε S α → Outcome ε S α → Prop
  | .done a b, .done a' b' => R a a' ∧ D b b'
  | .failed e b, .failed e' b' => e = e' ∧ E b b'
  | .fault f, .fault f' => f = f' ∧ F f
  | _, _ => False

section Agree

variable {ε α S : Type} {F : Fault → Prop} {R R' : α → α → Prop} {D D' E E' : S → S → Prop}
  {o₁ o₂ : Outcome ε S α}

/-- Outcomes that agree are of the same kind. -/
theorem Agree.cases (h : Agree F R D E o₁ o₂) :
    (∃ f, o₁ = .fault f ∧ o₂ = .fault f ∧ F f) ∨
      (∃ e b₁ b₂, o₁ = .failed e b₁ ∧ o₂ = .failed e b₂ ∧ E b₁ b₂) ∨
      ∃ a₁ a₂ b₁ b₂, o₁ = .done a₁ b₁ ∧ o₂ = .done a₂ b₂ ∧ R a₁ a₂ ∧ D b₁ b₂ := by
  rcases o₁ with ⟨a₁, s₁⟩ | ⟨e₁, s₁⟩ | f₁ <;> rcases o₂ with ⟨a₂, s₂⟩ | ⟨e₂, s₂⟩ | f₂ <;>
    try exact h.elim
  · exact .inr (.inr ⟨a₁, a₂, s₁, s₂, rfl, rfl, h.1, h.2⟩)
  · obtain ⟨rfl, hE⟩ := h
    exact .inr (.inl ⟨e₁, s₁, s₂, rfl, rfl, hE⟩)
  · obtain ⟨rfl, hF⟩ := h
    exact .inl ⟨f₁, rfl, rfl, hF⟩

theorem Agree.imp (h : Agree F R D E o₁ o₂) (hR : ∀ a a', R a a' → R' a a')
    (hD : ∀ b b', D b b' → D' b b') (hE : ∀ b b', E b b' → E' b b') : Agree F R' D' E' o₁ o₂ := by
  obtain ⟨f, rfl, rfl, hF⟩ | ⟨e, b₁, b₂, rfl, rfl, hfailed⟩ |
    ⟨a₁, a₂, b₁, b₂, rfl, rfl, hanswers, hdone⟩ := h.cases
  · exact ⟨rfl, hF⟩
  · exact ⟨rfl, hE b₁ b₂ hfailed⟩
  · exact ⟨hR a₁ a₂ hanswers, hD b₁ b₂ hdone⟩

/-- Where there can be no fault, both are errors or both are answers. -/
theorem Agree.failed_or_done (h : Agree Fault.Never R D E o₁ o₂) :
    (∃ e b₁ b₂, o₁ = .failed e b₁ ∧ o₂ = .failed e b₂ ∧ E b₁ b₂) ∨
      ∃ a₁ a₂ b₁ b₂, o₁ = .done a₁ b₁ ∧ o₂ = .done a₂ b₂ ∧ R a₁ a₂ ∧ D b₁ b₂ :=
  h.cases.resolve_left fun ⟨_, _, _, hnever⟩ => hnever

theorem Agree.ofNever (h : Agree Fault.Never R D E o₁ o₂) : Agree F R D E o₁ o₂ := by
  obtain ⟨e, b₁, b₂, rfl, rfl, hE⟩ | ⟨a₁, a₂, b₁, b₂, rfl, rfl, hR, hD⟩ := h.failed_or_done
  · exact ⟨rfl, hE⟩
  · exact ⟨hR, hD⟩

theorem Agree.mapError {R : α → α → Prop} {o₁ o₂ : Outcome MuxError S α}
    (h : Agree F R D E o₁ o₂) :
    Agree F R D E (o₁.mapError SimError.mux) (o₂.mapError SimError.mux) := by
  obtain ⟨f, rfl, rfl, hF⟩ | ⟨e, b₁, b₂, rfl, rfl, hE⟩ | ⟨a₁, a₂, b₁, b₂, rfl, rfl, hR, hD⟩ := h.cases
  · exact ⟨rfl, hF⟩
  · exact ⟨rfl, hE⟩
  · exact ⟨hR, hD⟩

/-- What agrees goes on in agreement. -/
theorem Agree.andThen {β : Type} {R₀ : β → β → Prop} {o₁ o₂ : Outcome ε S β}
    {next₁ next₂ : β → S → Outcome ε S α} (h : Agree F R₀ D' E o₁ o₂)
    (hnext : ∀ a₁ a₂ b₁ b₂, R₀ a₁ a₂ → D' b₁ b₂ → Agree F R D E (next₁ a₁ b₁) (next₂ a₂ b₂)) :
    Agree F R D E (o₁.andThen next₁) (o₂.andThen next₂) := by
  obtain ⟨f, rfl, rfl, hF⟩ | ⟨e, b₁, b₂, rfl, rfl, hE⟩ | ⟨a₁, a₂, b₁, b₂, rfl, rfl, hR, hD⟩ := h.cases
  · exact ⟨rfl, hF⟩
  · exact ⟨rfl, hE⟩
  · exact hnext a₁ a₂ b₁ b₂ hR hD

end Agree

end Bench

end EdgeWait
