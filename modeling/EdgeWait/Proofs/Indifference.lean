/-
Orders make no difference to a driver.

Two sessions are played for the same driver with the same scheduler, in different circumstances and
with pools in different orders.

* `flushAt_akin` — the end of a round comes to the same in both, whatever the orders of its flushes
  are;
* `drive_akin` — so does every number of rounds;
* `drive_footed` — no round stops at an event without a signal, if there is none in the queue and
  the driver schedules none;
* `drive_indifferent` — so the scheduler is called for the same tasks, the driver is answered the
  same, and the simulator reaches the same state;
* `drive_differs_across_shutdown` — it is not so if waits are moved past a shutdown.

Design notes: what the driver asks for depends on the calls that it has seen.  So the sessions are
compared round by round, and only when their calls are known to be the same so far does the driver
begin the same round in both.
-/
import EdgeWait.Proofs.Requests

namespace EdgeWait

open Bench Sim

namespace Session

variable {T : Type} {s s₁ s₂ t₁ t₂ : Session T}

/-! ### Rounds -/

/-- Two sessions are alike, and the same tasks wait in both unless they are poisoned. -/
structure Together (s₁ s₂ : Session T) : Prop extends Akin s₁ s₂ where
  waiting : s₁.bench.mux.isPoisoned = false → SameWaiting s₁.bench s₂.bench

/-- Two courses have been answered the same, and have led to sessions that are alike. -/
structure Matches (o₁ o₂ : Course T) : Prop where
  replies : o₁.replies = o₂.replies
  fault : o₁.fault = o₂.fault
  together : Together o₁.session o₂.session

/-- In a course no wait has been recorded twice, and no key has been issued twice. -/
structure Clean (o : Course T) : Prop where
  faults : ∀ f, o.fault = some f → ¬ f.IsDuplicate
  nodup : o.session.bench.log.issued.Nodup

theorem Matches.onward {o₁ o₂ : Course T} {next₁ next₂ : Session T → Course T}
    (h : Matches o₁ o₂)
    (hnext : o₁.fault = none → Matches (next₁ o₁.session) (next₂ o₂.session)) :
    Matches (o₁.onward next₁) (o₂.onward next₂) := by
  cases hfault : o₁.fault with
  | some f =>
    rw [Course.onward_of_fault hfault, Course.onward_of_fault (h.fault ▸ hfault)]
    exact h
  | none =>
    rw [Course.onward_of_no_fault hfault, Course.onward_of_no_fault (h.fault ▸ hfault)]
    have hrest := hnext hfault
    exact ⟨by rw [h.replies, hrest.replies], hrest.fault, hrest.together⟩

/-- Both parts of a clean course are clean, as keys are only added. -/
theorem Clean.of_onward {F : Fault → Prop} {o : Course T} {next : Session T → Course T}
    (h : Clean (o.onward next)) (hsound : o.session.Sound)
    (hnext : ∀ (s : Session T) issued, s.Grown issued → (next s).Upholds F (Grown issued)) :
    Clean o ∧ (o.fault = none → Clean (next o.session)) := by
  cases hfault : o.fault with
  | some f =>
    rw [Course.onward_of_fault hfault] at h
    exact ⟨h, nofun⟩
  | none =>
    rw [Course.onward_of_no_fault hfault] at h
    have hlater := (hnext _ _ hsound.grown).session.issued
    refine ⟨⟨fun f hf => ?_, h.nodup.sublist hlater.sublist⟩, fun _ => ⟨h.faults, h.nodup⟩⟩
    rw [hfault] at hf
    cases hf

/-- When the same has been left over on each list, the same tasks wait. -/
theorem Together.asked (h : Together s₁ s₂) {asks₁ asks₂ : List Ask} (hakin : Akin t₁ t₂)
    (hrecorded₁ : Recorded asks₁ s₁ t₁) (hrecorded₂ : Recorded asks₂ s₂ t₂)
    (hdrops : drops asks₁ = drops asks₂)
    (hleftOver : ∀ signal edge,
      waitingIn (leftOver asks₁) signal edge = waitingIn (leftOver asks₂) signal edge) :
    Together t₁ t₂ := by
  refine ⟨hakin, fun hlive signal edge => ?_⟩
  have hbefore : s₁.bench.mux.isPoisoned = false := by
    rw [Bool.eq_false_iff]
    intro hpoisoned
    rw [hrecorded₁.poisoned hpoisoned] at hlive
    cases hlive
  rw [hrecorded₁.waiting, hrecorded₂.waiting, hdrops, h.waiting hbefore, hleftOver]

/-- Contexts that have moved on alike are those of sessions that are alike. -/
theorem Together.moved (h : Together s₁ s₂) {label₁ label₂ : Nat → Option Nat} {c : Sim}
    {L₁ L₂ : List SimHolding} (halike : Alike c label₁ label₂ s₁.bench L₁ s₂.bench L₂)
    (hanswered₁ : Answered label₁ s₁) (hanswered₂ : Answered label₂ s₂)
    {b₁ b₂ : SimBench (SchedulerRecord T)}
    (hmoved : Moved label₁ label₂ s₁.bench s₂.bench b₁ b₂) :
    Together ⟨b₁, s₁.answers⟩ ⟨b₂, s₂.answers⟩ := by
  obtain ⟨⟨⟨c', L₁', L₂', halike'⟩, hwaiting⟩, hissued₁, hissued₂⟩ := hmoved
  exact ⟨⟨⟨label₁, label₂, c', L₁', L₂', halike',
    hanswered₁.of_prefix halike.left.unlabelled hissued₁,
    hanswered₂.of_prefix halike.right.unlabelled hissued₂⟩, h.answers⟩, hwaiting⟩

/-- Operations that agree are answered the same. -/
theorem Together.settle (h : Together s₁ s₂) {label₁ label₂ : Nat → Option Nat} {c : Sim}
    {L₁ L₂ : List SimHolding} (halike : Alike c label₁ label₂ s₁.bench L₁ s₂.bench L₂)
    (hanswered₁ : Answered label₁ s₁) (hanswered₂ : Answered label₂ s₂) {α : Type}
    {F : Fault → Prop} {R : α → α → Prop}
    {o₁ o₂ : Outcome SimError (SimBench (SchedulerRecord T)) α}
    (hagree : Agree F R (Going label₁ label₂ s₁.bench s₂.bench)
      (Moved label₁ label₂ s₁.bench s₂.bench) o₁ o₂) {reply : α → Reply}
    (hreply : ∀ a₁ a₂, R a₁ a₂ → reply a₁ = reply a₂) :
    Matches (s₁.settle reply o₁) (s₂.settle reply o₂) := by
  obtain ⟨f, rfl, rfl, -⟩ | ⟨error, b₁, b₂, rfl, rfl, hmoved⟩ |
    ⟨a₁, a₂, b₁, b₂, rfl, rfl, hR, hgoing⟩ := hagree.cases
  · exact ⟨rfl, rfl, h⟩
  · exact ⟨rfl, rfl, h.moved halike hanswered₁ hanswered₂ hmoved⟩
  · refine ⟨?_, rfl, h.moved halike hanswered₁ hanswered₂ hgoing.toMoved⟩
    rw [Session.settle, Session.settle, hreply a₁ a₂ hR]

/-- As long as no slot has been used too often, no key has been issued twice. -/
theorem Sound.nodup (h : s.Sound) (hunwrapped : s.Unwrapped) : s.bench.log.issued.Nodup := by
  obtain ⟨c, L, htracked⟩ := h
  exact htracked.carries.extra.counted.nodup hunwrapped

variable [Scheduler T]

/-- **The end of a round** stops on nothing but an event whose signal does not exist. -/
theorem flushAt_grown {issued : List RegistrationKey} (h : s.Grown issued)
    (orders : Nat → VisitOrder SignalId) (point : Option FlushPoint) :
    (s.flushAt orders point).Upholds Fault.MissesSignal (Grown issued) := by
  have hjoint := h.sound.joint
  rcases point with - | point
  · exact ⟨h, nofun⟩
  cases point with
  | flush => exact h.settle (flush_agree hjoint (orders 0) (orders 0)).mapError.ofNever _
  | step => exact h.settle (step_agree hjoint (orders 0) (orders 0)) _
  | run => exact h.settle (run_agree hjoint orders orders) _
  | runUntil limit => exact h.settle (runUntil_agree hjoint orders orders limit) _

/-- **Rounds** stop on nothing but a wait that is recorded twice, or such an event. -/
theorem drive_grown (driver : Driver) (κ : Circumstances Rearranged) (n k : Nat) (s : Session T)
    (issued : List RegistrationKey) (h : s.Grown issued) :
    (drive driver κ n k s).Upholds Fault.IsSlip (Grown issued) :=
  drive_upholds (q := fun _ => True) (fun h => h.prompts)
    (fun _ w hs => (addWait_grown hs w).imp (fun _ => .inl) fun _ => id)
    (fun _ p hs _ => (prompt_grown hs p).imp (fun _ => .inl) fun _ => id)
    (fun _ orders point hs => (flushAt_grown hs orders point).imp (fun _ => .inr) fun _ => id)
    (fun _ _ _ _ => trivial) n k s h

/-- **The end of a round** comes to the same in both sessions, whatever the orders of its flushes
are. -/
theorem flushAt_akin (h : Together s₁ s₂) (orders₁ orders₂ : Nat → VisitOrder SignalId)
    (point : Option FlushPoint) :
    Matches (s₁.flushAt orders₁ point) (s₂.flushAt orders₂ point) := by
  obtain ⟨label₁, label₂, c, L₁, L₂, halike, hanswered₁, hanswered₂⟩ := h.alike
  have hjoint : Joint label₁ label₂ s₁.bench s₂.bench := ⟨⟨c, L₁, L₂, halike⟩, h.waiting⟩
  rcases point with - | point
  · exact ⟨rfl, rfl, h⟩
  cases point with
  | flush =>
    exact h.settle halike hanswered₁ hanswered₂
      (flush_agree hjoint (orders₁ 0) (orders₂ 0)).mapError fun _ _ _ => rfl
  | step =>
    exact h.settle halike hanswered₁ hanswered₂ (step_agree hjoint (orders₁ 0) (orders₂ 0))
      fun _ _ heq => by rw [heq]
  | run =>
    exact h.settle halike hanswered₁ hanswered₂ (run_agree hjoint orders₁ orders₂)
      fun _ _ heq => by rw [heq]
  | runUntil limit =>
    exact h.settle halike hanswered₁ hanswered₂ (runUntil_agree hjoint orders₁ orders₂ limit)
      fun _ _ heq => by rw [heq]

omit [Scheduler T] in
/-- **The requests of a round** come to the same in both sessions, when they are rearranged. -/
theorem ask_matches (h : Together s₁ s₂) {asks asks₁ asks₂ : List Ask}
    (harranged₁ : Rearranged asks₁ asks) (harranged₂ : Rearranged asks₂ asks)
    (hclean₁ : Clean (ask asks₁ s₁)) (hclean₂ : Clean (ask asks₂ s₂)) :
    Matches (ask asks₁ s₁) (ask asks₂ s₂) := by
  have hprompts := harranged₁.prompts.trans harranged₂.prompts.symm
  -- the only fault that there can be is a wait that is recorded twice
  have hfault : ∀ {asks : List Ask} {s : Session T}, s.Sound → Clean (ask asks s) →
      (ask asks s).fault = none := by
    intro asks s hs hclean
    rw [Option.eq_none_iff_forall_ne_some]
    exact fun f hf => hclean.faults f hf ((ask_grown asks s hs.grown).faults f hf)
  have hfault₁ := hfault h.sound₁ hclean₁
  have hfault₂ := hfault h.sound₂ hclean₂
  obtain ⟨hreplies, hakin⟩ := ask_akin (interleaved_of_prompts _ _ hprompts) s₁ s₂ h.toAkin
    hfault₁ hfault₂ hclean₁.nodup hclean₂.nodup
  refine ⟨hreplies, hfault₁.trans hfault₂.symm, h.asked hakin (ask_recorded asks₁ s₁ h.sound₁ hfault₁)
    (ask_recorded asks₂ s₂ h.sound₂ hfault₂) (by rw [drops, hprompts, drops]) ?_⟩
  exact fun signal edge =>
    (harranged₁.leftOver signal edge).trans (harranged₂.leftOver signal edge).symm

/-- **Rounds of a driver** come to the same in both sessions. -/
theorem drive_akin (driver : Driver) (κ₁ κ₂ : Circumstances Rearranged) (n : Nat) :
    ∀ (k : Nat) (s₁ s₂ : Session T), Together s₁ s₂ → Clean (drive driver κ₁ n k s₁) →
      Clean (drive driver κ₂ n k s₂) →
      Matches (drive driver κ₁ n k s₁) (drive driver κ₂ n k s₂) := by
  induction n with
  | zero => exact fun k s₁ s₂ h _ _ => ⟨rfl, rfl, h⟩
  | succ n ih =>
    intro k s₁ s₂ h hclean₁ hclean₂
    -- the driver has seen the same calls, so that it begins the same round
    have hscheduler : s₁.bench.scheduler = s₂.bench.scheduler := by
      obtain ⟨label₁, label₂, c, L₁, L₂, halike, -⟩ := h.alike
      exact halike.scheduler
    rw [drive, hscheduler] at hclean₁ ⊢
    rw [drive] at hclean₂ ⊢
    generalize driver k s₂.bench.scheduler.calls = round at hclean₁ hclean₂ ⊢
    have hrest : ∀ (κ : Circumstances Rearranged) (t : Session T) issued, t.Grown issued →
        ((t.flushAt (κ.orders k) round.flushPoint).onward (drive driver κ n (k + 1))).Upholds
          Fault.IsSlip (Grown issued) := fun κ t issued ht =>
      ((flushAt_grown ht _ _).imp (fun _ => .inr) fun _ => id).onward fun t' ht' =>
        drive_grown driver κ n (k + 1) t' issued ht'
    obtain ⟨hfirst₁, hmore₁⟩ :=
      hclean₁.of_onward (ask_grown _ s₁ h.sound₁.grown).session.sound (hrest κ₁)
    obtain ⟨hfirst₂, hmore₂⟩ :=
      hclean₂.of_onward (ask_grown _ s₂ h.sound₂.grown).session.sound (hrest κ₂)
    have hasked := ask_matches h (κ₁.arranged k _) (κ₂.arranged k _) hfirst₁ hfirst₂
    refine hasked.onward fun hfault => ?_
    have hflushed := flushAt_akin hasked.together (κ₁.orders k) (κ₂.orders k) round.flushPoint
    refine hflushed.onward fun hfault' => ?_
    obtain ⟨-, hlast₁⟩ := (hmore₁ hfault).of_onward
      (flushAt_grown hasked.together.sound₁.grown _ _).session.sound
      (drive_grown driver κ₁ n (k + 1))
    obtain ⟨-, hlast₂⟩ := (hmore₂ (hasked.fault ▸ hfault)).of_onward
      (flushAt_grown hasked.together.sound₂.grown _ _).session.sound
      (drive_grown driver κ₂ n (k + 1))
    exact ih (k + 1) _ _ hflushed.together (hlast₁ hfault') (hlast₂ (hflushed.fault ▸ hfault'))

/-! ### Events without a signal -/

theorem prompt_footed {n : Nat} (h : Footed n s.bench) {p : Prompt} (hp : p.Names n) :
    (s.prompt p).Upholds Fault.IsDuplicate fun s' => Footed n s'.bench := by
  cases p with
  | waitNow signal edge task =>
    exact settleKey_upholds h ((h.waitNow signal edge task).imp fun _ h' _ => h')
  | watch signal edge task =>
    exact settleKey_upholds h ((h.watch signal edge task).imp fun _ h' _ => h')
  | cancel request =>
    rw [prompt]
    cases s.answers[request]?.join with
    | none => exact ⟨h, by simp⟩
    | some key => exact settle_upholds h (h.cancel key)
  | schedule time signal value => exact ⟨h.schedule hp time value, by simp [prompt]⟩
  | shutdown => exact settle_upholds h h.shutdown

theorem addWait_footed {n : Nat} (h : Footed n s.bench) (w : Wait SignalId) :
    (s.answer (.addWait w)).Upholds Fault.IsDuplicate fun s' => Footed n s'.bench := by
  have hadded := h.addWait (ε := SimError) w.signal w.edge w.task
  rw [answer]
  cases heq : s.bench.addWait w.signal w.edge w.task with
  | error f =>
    rw [heq] at hadded
    exact ⟨h, fun _ hf => Option.some.inj hf ▸ hadded⟩
  | ok b =>
    rw [heq] at hadded
    exact ⟨hadded, by simp⟩

theorem flushAt_footed {n : Nat} (h : Footed n s.bench) (orders : Nat → VisitOrder SignalId)
    (point : Option FlushPoint) :
    (s.flushAt orders point).Upholds Fault.IsDuplicate fun s' => Footed n s'.bench := by
  rcases point with - | point
  · exact ⟨h, nofun⟩
  cases point with
  | flush => exact settle_upholds h ((h.flush (orders 0)).mapError _)
  | step => exact settle_upholds h (h.step (orders 0))
  | run => exact settle_upholds h (h.run orders)
  | runUntil limit => exact settle_upholds h (h.runUntil orders limit)

/-- **Rounds** of a driver that names only signals that exist let no event come up without its
signal. -/
theorem drive_footed {driver : Driver} {signals : Nat} (hnames : driver.Names signals)
    (κ : Circumstances Rearranged) (n k : Nat) (h : Footed signals s.bench) :
    (drive driver κ n k s).Upholds Fault.IsDuplicate fun s' => Footed signals s'.bench :=
  drive_upholds (fun h => h.prompts) (fun _ w hs => addWait_footed hs w)
    (fun _ _ hs hp => prompt_footed hs hp) (fun _ orders point hs => flushAt_footed hs orders point)
    hnames n k s h

/-! ### Sessions -/

omit [Scheduler T] in
/-- The context of a new session holds nothing. -/
theorem side_start {config : Config} {picks : List Nat} {mux : Mux SignalId CallbackHandle}
    {sim : Sim} (hmux : Mux.ofConfig config picks = .ok mux) (hsim : sim.Unsubscribed)
    (scheduler : T) : Side sim (fun _ => none) (start mux sim scheduler).bench [] := by
  have htracked := (mirrors_start hmux hsim scheduler).tracked
  exact ⟨⟨htracked.roster, htracked.extra, rfl⟩, fun _ _ => rfl⟩

omit [Scheduler T] in
/-- New sessions are alike when only the orders of their pools differ. -/
theorem together_start {config₁ config₂ : Config} {picks₁ picks₂ : List Nat}
    {mux₁ mux₂ : Mux SignalId CallbackHandle} {sim : Sim}
    (hbatching : config₁.batching = config₂.batching) (hvalues : config₁.values = config₂.values)
    (hcapacity : config₁.pool.capacity = config₂.pool.capacity)
    (hmux₁ : Mux.ofConfig config₁ picks₁ = .ok mux₁)
    (hmux₂ : Mux.ofConfig config₂ picks₂ = .ok mux₂) (hsim : sim.Unsubscribed) (scheduler : T) :
    Together (start mux₁ sim scheduler) (start mux₂ sim scheduler) := by
  have hside₁ := side_start hmux₁ hsim scheduler
  have hside₂ := side_start hmux₂ hsim scheduler
  obtain ⟨policy₁, hpolicy₁, rfl⟩ := Mux.ofConfig_eq hmux₁
  obtain ⟨policy₂, hpolicy₂, rfl⟩ := Mux.ofConfig_eq hmux₂
  obtain rfl : policy₁ = policy₂ := by
    rw [hbatching, hpolicy₂] at hpolicy₁
    exact (Except.ok.inj hpolicy₁).symm
  have hsize : (config₁.pool.pool picks₁).capacity = (config₂.pool.pool picks₂).capacity := by
    rw [(IdPool.pool_valid _ _).2.1, (IdPool.pool_valid _ _).2.1, hcapacity]
  have hunknown : config₁.values.unknownAsZero = config₂.values.unknownAsZero := by rw [hvalues]
  exact ⟨⟨⟨fun _ => none, fun _ => none, sim, [], [], ⟨⟨hside₁, hside₂, rfl, hsize, .refl _⟩, rfl,
    fun _ => ⟨rfl, hunknown, fun _ => rfl⟩⟩, answered_start _ _ _, answered_start _ _ _⟩, rfl⟩,
    fun _ _ _ => rfl⟩

/-- **Orders make no difference.**  A driver has two sessions with the same scheduler, which may
fail.  They differ in the order of the ids in the pool, in the orders in which flushes visit the
signals, and in the way in which waits on different lists are interleaved, only that none is moved
past the last shutdown of its round.  Nothing stops either of them but a wait that is recorded twice
or, if there has been one or the driver has scheduled one, an event on a signal that does not exist.
If no wait is recorded twice, and they use no slot too often, then the driver is answered the same,
the scheduler has been called for the same, and the simulators have reached the same state.  That the
pool may have been exhausted, with other lists left over in each session, does not matter. -/
theorem drive_indifferent {config₁ config₂ : Config} {picks₁ picks₂ : List Nat}
    {mux₁ mux₂ : Mux SignalId CallbackHandle} {sim : Sim}
    (hbatching : config₁.batching = config₂.batching) (hvalues : config₁.values = config₂.values)
    (hcapacity : config₁.pool.capacity = config₂.pool.capacity)
    (hmux₁ : Mux.ofConfig config₁ picks₁ = .ok mux₁)
    (hmux₂ : Mux.ofConfig config₂ picks₂ = .ok mux₂) (hsim : sim.Unsubscribed) (scheduler : T)
    (driver : Driver) (κ₁ κ₂ : Circumstances Rearranged) (n : Nat) {o₁ o₂ : Course T}
    (h₁ : drive driver κ₁ n 0 (start mux₁ sim scheduler) = o₁)
    (h₂ : drive driver κ₂ n 0 (start mux₂ sim scheduler) = o₂) :
    (∀ o ∈ [o₁, o₂], ∀ f, o.fault = some f → f.IsDuplicate ∨
      f.MissesSignal ∧ ¬ (sim.Grounded ∧ driver.Names sim.signals.size)) ∧
    ((∀ o ∈ [o₁, o₂], (∀ f, o.fault = some f → ¬ f.IsDuplicate) ∧ o.session.Unwrapped) →
      o₁.replies = o₂.replies ∧ o₁.fault = o₂.fault ∧
        o₁.session.bench.scheduler.calls = o₂.session.bench.scheduler.calls ∧
        o₁.session.bench.native.signals = o₂.session.bench.native.signals ∧
        o₁.session.bench.native.now = o₂.session.bench.native.now ∧
        o₁.session.bench.native.steps = o₂.session.bench.native.steps) := by
  subst h₁ h₂
  have hstart := together_start hbatching hvalues hcapacity hmux₁ hmux₂ hsim scheduler
  have hgrown₁ := drive_grown driver κ₁ n 0 _ _ hstart.sound₁.grown
  have hgrown₂ := drive_grown driver κ₂ n 0 _ _ hstart.sound₂.grown
  have hslip : ∀ {config : Config} {picks : List Nat} {mux : Mux SignalId CallbackHandle}
      (κ : Circumstances Rearranged), Mux.ofConfig config picks = .ok mux → ∀ f,
      f.IsSlip → (drive driver κ n 0 (start mux sim scheduler)).fault = some f →
      f.IsDuplicate ∨ f.MissesSignal ∧ ¬ (sim.Grounded ∧ driver.Names sim.signals.size) := by
    intro config picks mux κ hmux f hslip hf
    by_cases hgrounds : sim.Grounded ∧ driver.Names sim.signals.size
    · exact .inl ((drive_footed hgrounds.2 κ n 0
        (footed_start hmux hsim hgrounds.1 scheduler)).faults f hf)
    · exact hslip.imp_right fun hmisses => ⟨hmisses, hgrounds⟩
  refine ⟨?_, fun hclean => ?_⟩
  · simp only [List.forall_mem_cons, List.not_mem_nil, false_imp_iff, implies_true, and_true]
    exact ⟨fun f hf => hslip κ₁ hmux₁ f (hgrown₁.faults f hf) hf,
      fun f hf => hslip κ₂ hmux₂ f (hgrown₂.faults f hf) hf⟩
  · simp only [List.forall_mem_cons, List.not_mem_nil, false_imp_iff, implies_true, and_true]
      at hclean
    obtain ⟨⟨hfaults₁, hunwrapped₁⟩, hfaults₂, hunwrapped₂⟩ := hclean
    obtain ⟨hreplies, hfault, htogether⟩ := drive_akin driver κ₁ κ₂ n 0 _ _ hstart
      ⟨hfaults₁, hgrown₁.session.sound.nodup hunwrapped₁⟩
      ⟨hfaults₂, hgrown₂.session.sound.nodup hunwrapped₂⟩
    obtain ⟨label₁, label₂, c, L₁, L₂, halike, -⟩ := htogether.alike
    obtain ⟨hworld, hsteps⟩ := halike.left.sameWorld halike.right
    exact ⟨hreplies, hfault, congrArg SchedulerRecord.calls halike.scheduler, hworld.signals,
      hworld.now, hsteps⟩

/-- A driver that has two tasks woken, and then asks for three registrations at once. -/
def twoThenThree : Driver
  | 0, _ =>
    ⟨[.addWait ⟨⟨0⟩, .rising, ⟨1⟩⟩, .addWait ⟨⟨1⟩, .rising, ⟨2⟩⟩,
      .prompt (.schedule ⟨5⟩ ⟨0⟩ .one), .prompt (.schedule ⟨5⟩ ⟨1⟩ .one)], some .step⟩
  | 1, [_, _] =>
    ⟨[.prompt (.watch ⟨0⟩ .falling ⟨3⟩), .addWait ⟨⟨0⟩, .rising, ⟨1⟩⟩,
      .addWait ⟨⟨1⟩, .rising, ⟨2⟩⟩], some .flush⟩
  | 2, _ => ⟨[.prompt (.cancel 0)], none⟩
  | _, _ => ⟨[], none⟩

/-- The waits on one signal are recorded first. -/
def waitsFirst (on : SignalId) (asks : List Ask) : List Ask :=
  asks.filter (fun a => a.wait?.any (·.signal = on)) ++
    asks.filter (fun a => !a.wait?.any (·.signal = on))

omit [Scheduler T] in
/-- Among the waits on some signals are all of each of these signals. -/
theorem waitingIn_filter (q : SignalId → Bool) (ws : List (Wait SignalId)) (signal : SignalId)
    (edge : Edge) : waitingIn (ws.filter fun w => q w.signal) signal edge =
      if q signal then waitingIn ws signal edge else [] := by
  rw [waitingIn, waitingIn, List.filter_filter]
  by_cases hq : q signal = true
  · rw [if_pos hq]
    congr 1
    refine List.filter_congr fun w _ => ?_
    by_cases hw : w.signal = signal ∧ w.edge = edge
    · simp [hw, hq]
    · simp [hw]
  · rw [if_neg hq, List.map_eq_nil_iff, List.filter_eq_nil_iff]
    intro w _
    by_cases hw : w.signal = signal ∧ w.edge = edge
    · simp [hw, hq]
    · simp [hw]

omit [Scheduler T] in
theorem reordered_waitsFirst (on : SignalId) (asks : List Ask) :
    Reordered (waitsFirst on asks) asks where
  prompts := by
    rw [waitsFirst, prompts, List.filterMap_append, List.filterMap_filter, List.filterMap_filter,
      List.filterMap_eq_nil_iff.mpr, List.nil_append]
    · exact List.filterMap_congr fun a _ => by cases a <;> simp [Ask.wait?, Ask.prompt?]
    · intro a _
      cases a <;> simp [Ask.wait?, Ask.prompt?]
  recorded := by
    intro signal edge
    have hfirst : (asks.filter fun a => a.wait?.any (·.signal = on)).filterMap Ask.wait? =
        (asks.filterMap Ask.wait?).filter (·.signal = on) := by
      rw [List.filterMap_filter, List.filter_filterMap]
      exact List.filterMap_congr fun a _ => by cases a <;> simp [Ask.wait?, Option.filter]
    have hothers : (asks.filter fun a => !a.wait?.any (·.signal = on)).filterMap Ask.wait? =
        (asks.filterMap Ask.wait?).filter (·.signal ≠ on) := by
      rw [List.filterMap_filter, List.filter_filterMap]
      exact List.filterMap_congr fun a _ => by cases a <;> simp [Ask.wait?, Option.filter]
    rw [recorded, waitsFirst, List.filterMap_append, hfirst, hothers, waitingIn_append]
    -- one of the two parts has all that waits on the signal
    rw [waitingIn_filter (fun s => decide (s = on)), waitingIn_filter (fun s => decide (s ≠ on))]
    by_cases hsignal : signal = on
    · simp [hsignal, recorded]
    · simp [hsignal, recorded]

/-- The signals are visited as they have been waited for, and the waits are left as they are. -/
def asIs : Circumstances Rearranged where
  orders _ _ := .recorded SignalId
  arrange _ asks := asks
  arranged _ := .refl

/-- In the first round the signals are visited in reverse, and the waits are interleaved in another
way unless there is a shutdown in it.  So in later rounds the lists are found in another order. -/
def elsewise : Circumstances Rearranged where
  orders k _ :=
    if k = 0 then ⟨fun _ signals => signals.reverse, fun _ signals => signals.reverse_perm⟩
    else .recorded SignalId
  arrange k asks := if k = 0 ∧ drops asks = false then waitsFirst ⟨1⟩ asks else asks
  arranged k asks := by
    split
    case isTrue h => exact (reordered_waitsFirst ⟨1⟩ asks).rearranged h.2
    case isFalse => exact .refl asks

/-- A context with two ids, which a shuffle may put in another order. -/
def twoIds (shuffle : Bool) : Config := { pool := { capacity := 2, shuffle } }

/-- Two signals that are both low. -/
def twoSignals : Sim := { signals := #[⟨"ready", .zero⟩, ⟨"valid", .zero⟩] }

/-- In each of the circumstances another wait is left over when the pool is exhausted, and still the
driver cannot tell them apart. -/
theorem drive_indifferent_twoThenThree :
    ∃ (mux₁ mux₂ : Mux SignalId CallbackHandle) (o₁ o₂ : Course ScriptedScheduler),
      drive twoThenThree asIs 3 0 (start mux₁ twoSignals (.failingAt [] ⟨"", ""⟩)) = o₁ ∧
      o₁.fault = none ∧ o₁.session.bench.mux.pending.waits = [⟨⟨1⟩, .rising, ⟨2⟩⟩] ∧
      drive twoThenThree elsewise 3 0 (start mux₂ twoSignals (.failingAt [] ⟨"", ""⟩)) = o₂ ∧
      o₂.fault = none ∧ o₂.session.bench.mux.pending.waits = [⟨⟨0⟩, .rising, ⟨1⟩⟩] ∧
      .failed (.mux (.poolExhausted 2)) ∈ o₁.replies ∧ o₁.replies = o₂.replies ∧
      o₁.session.bench.scheduler.calls = o₂.session.bench.scheduler.calls := by
  obtain ⟨mux₁, o₁, hmux₁, hdrive₁, hfault₁, hissued₁, hpending₁, hexhausted⟩ :
      ∃ (mux : Mux SignalId CallbackHandle) (o : Course ScriptedScheduler),
        Mux.ofConfig (twoIds false) [] = .ok mux ∧
        drive twoThenThree asIs 3 0 (start mux twoSignals (.failingAt [] ⟨"", ""⟩)) = o ∧
        o.fault = none ∧ o.session.bench.log.issued.length = 4 ∧
        o.session.bench.mux.pending.waits = [⟨⟨1⟩, .rising, ⟨2⟩⟩] ∧
        o.replies[4]? = some (.failed (.mux (.poolExhausted 2))) :=
    ⟨_, _, rfl, rfl, rfl, rfl, rfl, rfl⟩
  obtain ⟨mux₂, o₂, hmux₂, hdrive₂, hfault₂, hissued₂, hpending₂⟩ :
      ∃ (mux : Mux SignalId CallbackHandle) (o : Course ScriptedScheduler),
        Mux.ofConfig (twoIds true) [0] = .ok mux ∧
        drive twoThenThree elsewise 3 0 (start mux twoSignals (.failingAt [] ⟨"", ""⟩)) = o ∧
        o.fault = none ∧ o.session.bench.log.issued.length = 4 ∧
        o.session.bench.mux.pending.waits = [⟨⟨0⟩, .rising, ⟨1⟩⟩] :=
    ⟨_, _, rfl, rfl, rfl, rfl, rfl⟩
  have hbatching : (twoIds false).batching = (twoIds true).batching := rfl
  have hsim : twoSignals.Unsubscribed := ⟨rfl, rfl⟩
  obtain ⟨-, hsame⟩ := drive_indifferent hbatching rfl rfl hmux₁ hmux₂ hsim
    (.failingAt [] ⟨"", ""⟩ : ScriptedScheduler) twoThenThree asIs elsewise 3 hdrive₁ hdrive₂
  obtain ⟨hreplies, -, hcalls, -⟩ := hsame (by
    simp only [List.forall_mem_cons, List.not_mem_nil, false_imp_iff, implies_true, and_true]
    exact ⟨⟨by simp [hfault₁], unwrapped_of_length_le (by omega)⟩, by simp [hfault₂],
      unwrapped_of_length_le (by omega)⟩)
  exact ⟨mux₁, mux₂, o₁, o₂, hdrive₁, hfault₁, hpending₁, hdrive₂, hfault₂, hpending₂,
    List.mem_of_getElem? hexhausted, hreplies, hcalls⟩

/-! ### Waits that are moved past a shutdown -/

/-- Two tasks wait for one signal each, the second one since the first has been dropped. -/
def shutdownBetween : Driver
  | 0, _ =>
    ⟨[.addWait ⟨⟨0⟩, .rising, ⟨1⟩⟩, .prompt .shutdown, .addWait ⟨⟨1⟩, .rising, ⟨2⟩⟩,
      .prompt (.schedule ⟨5⟩ ⟨0⟩ .one), .prompt (.schedule ⟨5⟩ ⟨1⟩ .one)], some .step⟩
  | _, _ => ⟨[], none⟩

/-- Waits are left where they are, or those on one signal are recorded before all else that is asked
for in a round. -/
def hurried (on : Option SignalId) : Circumstances Reordered where
  orders _ _ := .recorded SignalId
  arrange _ asks := on.elim asks fun on => waitsFirst on asks
  arranged _ asks := by
    cases on with
    | none => exact (Rearranged.refl asks).toReordered
    | some on => exact reordered_waitsFirst on asks

/-- **A wait must not be moved past a shutdown**, even if those on each list stay in their order.
The second task is woken if it has begun to wait after the shutdown, and nobody is if it has before
it. -/
theorem drive_differs_across_shutdown :
    ∃ (mux : Mux SignalId CallbackHandle) (o₁ o₂ : Course ScriptedScheduler),
      Mux.ofConfig (twoIds false) [] = .ok mux ∧ twoSignals.Unsubscribed ∧
      drive shutdownBetween (hurried none) 1 0
        (start mux twoSignals (.failingAt [] ⟨"", ""⟩)) = o₁ ∧
      drive shutdownBetween (hurried (some ⟨1⟩)) 1 0
        (start mux twoSignals (.failingAt [] ⟨"", ""⟩)) = o₂ ∧
      o₁.fault = none ∧ o₂.fault = none ∧ o₁.session.Unwrapped ∧ o₂.session.Unwrapped ∧
      o₁.session.bench.scheduler.calls = [.resumed [⟨2⟩] (.ok ())] ∧
      o₂.session.bench.scheduler.calls = [] :=
  ⟨_, _, _, rfl, ⟨rfl, rfl⟩, rfl, rfl, rfl, rfl, unwrapped_of_length_le (Nat.le_of_ble_eq_true rfl),
    unwrapped_of_length_le (Nat.le_of_ble_eq_true rfl), rfl, rfl⟩

end Session

end EdgeWait
