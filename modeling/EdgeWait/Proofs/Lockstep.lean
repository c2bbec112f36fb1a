/-
Steps of the simulator, with two contexts that are alike.

* `reportTo_agree` — reports to the holdings on a signal make the same calls of the scheduler;
* `reportTo_subscribers_agree`, `applyChange_agree`, `applyEvents_agree` — so do the changes of one
  time;
* `step_agree`, `run_agree`, `runUntil_agree` — so do steps, each of which begins with a flush.

Design notes: the subscribers of a signal are called in the order in which they have subscribed.  On
each signal this order is the same in both simulators, whatever the order between the signals is.
An event without a signal stops both of them, on the same fault.
-/
import EdgeWait.Proofs.Accord

namespace EdgeWait

open Sim

namespace Bench

variable {T : Type} {label₁ label₂ : Nat → Option Nat}
  {b b' b₁ b₂ b₁' b₂' : SimBench (SchedulerRecord T)}

/-! ### What two alike contexts see of their simulators -/

theorem Joint.sameWorld (h : Joint label₁ label₂ b₁ b₂) :
    SameWorld b₂.native b₁.native ∧ b₁.native.steps = b₂.native.steps := by
  obtain ⟨⟨c, L₁, L₂, halike⟩, -⟩ := h
  exact halike.left.sameWorld halike.right

theorem Joint.nextTime?_eq (h : Joint label₁ label₂ b₁ b₂) :
    b₁.native.nextTime? = b₂.native.nextTime? := by
  rw [Sim.nextTime?, Sim.nextTime?, h.sameWorld.1.queue]

/-- Lines of the log that issue no key do not matter. -/
theorem Joint.note (h : Joint label₁ label₂ b₁ b₂) {entry₁ entry₂ : LogEntry}
    (hentry₁ : ∀ key id signal edge tasks, entry₁ ≠ .registered key id signal edge tasks)
    (hentry₂ : ∀ key id signal edge tasks, entry₂ ≠ .registered key id signal edge tasks) :
    Moved label₁ label₂ b₁ b₂ (b₁.note entry₁) (b₂.note entry₂) := by
  obtain ⟨⟨c, L₁, L₂, halike⟩, hwaiting⟩ := h
  have hcore₁ := sameCore_note b₁ hentry₁
  have hcore₂ := sameCore_note b₂ hentry₂
  refine ⟨⟨⟨c, L₁, L₂, halike.congr hcore₁ hcore₂⟩, hwaiting⟩, ?_, ?_⟩
  · simp only [hcore₁.issued, List.prefix_rfl]
  · simp only [hcore₂.issued, List.prefix_rfl]

/-- What agrees from a later state on agrees from an earlier one on. -/
theorem Agree.after {ε α : Type} {F : Fault → Prop} {R : α → α → Prop}
    {o₁ o₂ : Outcome ε (SimBench (SchedulerRecord T)) α}
    (h : Agree F R (Going label₁ label₂ b₁' b₂') (Moved label₁ label₂ b₁' b₂') o₁ o₂)
    (hmoved : Moved label₁ label₂ b₁ b₂ b₁' b₂') :
    Agree F R (Going label₁ label₂ b₁ b₂) (Moved label₁ label₂ b₁ b₂) o₁ o₂ :=
  h.imp (fun _ _ hR => hR) (fun _ _ hgoing => ⟨hmoved.trans hgoing.toMoved, hgoing.live⟩)
    fun _ _ hlater => hmoved.trans hlater

/-! ### Changes of value -/

variable [Scheduler T]

/-- **Reports to like holdings**, in turn, make the same calls of the scheduler. -/
theorem reportTo_agree {value v : Logic} (S₁ : List SimHolding) :
    ∀ (S₂ : List SimHolding) (c : Sim) (b₁ b₂ : SimBench (SchedulerRecord T))
      (L₁ L₂ : List SimHolding), Twins c label₁ label₂ b₁ L₁ b₂ L₂ →
      b₁.mux.isPoisoned = false → b₂.mux.isPoisoned = false → b₁.mux.observe value = v →
      b₂.mux.observe value = v → S₁.Sublist L₁ → S₂.Sublist L₂ →
      S₁.map (view label₁) = S₂.map (view label₂) →
      Agree Fault.Never (fun _ _ => True)
        (Passed label₁ label₂ b₁ b₂
          (L₁.filter fun f => !(decide (f.key ∈ S₁.map (·.key)) && isSpent v f))
          (L₂.filter fun f => !(decide (f.key ∈ S₂.map (·.key)) && isSpent v f)))
        (Moved label₁ label₂ b₁ b₂) (reportTo value (S₁.map fun e => (e.handle, callbackOf e)) b₁)
        (reportTo value (S₂.map fun e => (e.handle, callbackOf e)) b₂) := by
  induction S₁ with
  | nil =>
    intro S₂ c b₁ b₂ L₁ L₂ h hlive₁ hlive₂ _ _ _ _ hview
    obtain rfl : S₂ = [] := List.map_eq_nil_iff.mp hview.symm
    refine ⟨trivial, ⟨c, ?_⟩, .refl b₁, .refl b₂, hlive₁, hlive₂⟩
    simpa using h
  | cons e₁ S₁ ih =>
    intro S₂ c b₁ b₂ L₁ L₂ h hlive₁ hlive₂ hobserve₁ hobserve₂ hsub₁ hsub₂ hview
    cases S₂ with
    | nil => cases hview
    | cons e₂ S₂ =>
      obtain ⟨hhead, htail⟩ := List.cons.inj hview
      have he₁ : e₁ ∈ L₁ := hsub₁.subset List.mem_cons_self
      have he₂ : e₂ ∈ L₂ := hsub₂.subset List.mem_cons_self
      have hkeys₁ := h.left.tracked.roster.keys_nodup.sublist (hsub₁.map (·.key))
      have hkeys₂ := h.right.tracked.roster.keys_nodup.sublist (hsub₂.map (·.key))
      have hisLive₁ := isLive_of_mem h.left.tracked.carries he₁
      have hisLive₂ := isLive_of_mem h.right.tracked.carries he₂
      simp only [List.map_cons, reportTo, if_pos hisLive₁, if_pos hisLive₂]
      have htwins := h.onSim plain_delivered
      set d₁ := b₁.onSim fun s => { s with delivered := s.delivered + 1 } with hd₁
      set d₂ := b₂.onSim fun s => { s with delivered := s.delivered + 1 } with hd₂
      obtain ⟨error, b₁', b₂', heq₁, heq₂, hmoved⟩ | ⟨_, _, b₁', b₂', heq₁, heq₂, -, hpassed⟩ :=
        (deliver_agree htwins hlive₁ hlive₂ hobserve₁ hobserve₂ he₁ he₂ hhead).failed_or_done
      · have heq₁' : d₁.deliver (callbackOf e₁).key value = .failed error b₁' := heq₁
        have heq₂' : d₂.deliver (callbackOf e₂).key value = .failed error b₂' := heq₂
        simp only [heq₁', heq₂']
        exact ⟨rfl, hmoved.joint, hmoved.issued₁, hmoved.issued₂⟩
      · have heq₁' : d₁.deliver (callbackOf e₁).key value = .done _ b₁' := heq₁
        have heq₂' : d₂.deliver (callbackOf e₂).key value = .done _ b₂' := heq₂
        simp only [heq₁', heq₂']
        obtain ⟨c', htwins'⟩ := hpassed.twins
        have hkeeps₁ : Keeps b₁ b₁' := hpassed.keeps₁.of_onSim
        have hkeeps₂ : Keeps b₂ b₂' := hpassed.keeps₂.of_onSim
        -- the holdings to come are still in the rosters, as only the first ones may have left
        have hrest := ih S₂ c' b₁' b₂' _ _ htwins' hpassed.live₁ hpassed.live₂
          (hkeeps₁.observe_eq value ▸ hobserve₁) (hkeeps₂.observe_eq value ▸ hobserve₂)
          (sublist_filter_isSpent v hsub₁ hkeys₁) (sublist_filter_isSpent v hsub₂ hkeys₂) htail
        rw [filter_filter_isSpent, filter_filter_isSpent, List.map_cons, List.map_cons] at hrest
        refine hrest.imp (fun _ _ h => h) (fun b₁'' b₂'' hlater => ?_) fun b₁'' b₂'' hlater => ?_
        · exact ⟨hlater.twins, hkeeps₁.trans hlater.keeps₁, hkeeps₂.trans hlater.keeps₂,
            hlater.live₁, hlater.live₂⟩
        · exact ⟨hlater.joint, hkeeps₁.issued.trans hlater.issued₁,
            hkeeps₂.issued.trans hlater.issued₂⟩

/-- **Reports to the subscribers of a signal** make the same calls in both contexts. -/
theorem reportTo_subscribers_agree (h : Joint label₁ label₂ b₁ b₂)
    (hlive : b₁.mux.isPoisoned = false) (signal : SignalId) (value : Logic) :
    Agree Fault.Never (fun _ _ => True) (Going label₁ label₂ b₁ b₂) (Moved label₁ label₂ b₁ b₂)
      (reportTo value (b₁.native.subscribers signal) b₁)
      (reportTo value (b₂.native.subscribers signal) b₂) := by
  obtain ⟨⟨c, L₁, L₂, halike⟩, hwaiting⟩ := h
  have hmatched := halike.matched hlive
  have hlive₂ : b₂.mux.isPoisoned = false := halike.poisoned ▸ hlive
  have hobserve : b₂.mux.observe value = b₁.mux.observe value := by
    rw [Mux.observe, Mux.observe, hmatched.unknownAsZero]
  have hcarries₁ := halike.left.tracked.carries
  have hcarries₂ := halike.right.tracked.carries
  -- the subscribers are the holdings on the signal, in the order of the roster
  rw [hcarries₁.extra.serves.subscribers_eq hcarries₁.extra.numbered signal,
    hcarries₂.extra.serves.subscribers_eq hcarries₂.extra.numbered signal]
  have hreports := reportTo_agree (v := b₁.mux.observe value) _ _ c b₁ b₂ L₁ L₂ halike.toTwins
    hlive hlive₂ rfl hobserve List.filter_sublist List.filter_sublist (hmatched.holdings signal)
  rw [filter_isSpent_on halike.left.tracked.roster, filter_isSpent_on halike.right.tracked.roster]
    at hreports
  refine hreports.imp (fun _ _ h => h) (fun b₁' b₂' hpassed => ?_) fun _ _ hmoved => hmoved
  obtain ⟨⟨c', htwins⟩, hkeeps₁, hkeeps₂, hup₁, hup₂⟩ := hpassed
  refine ⟨⟨⟨⟨c', _, _, htwins, hup₁.trans hup₂.symm, fun _ => ?_⟩, fun _ on edge => ?_⟩,
    hkeeps₁.issued, hkeeps₂.issued⟩, hup₁⟩
  · -- what leaves the rosters has been made for the same in both
    exact hmatched.filter hkeeps₁.toSameSettings hkeeps₂.toSameSettings
      (fun v => !(decide (v.1.signal = signal) &&
        (v.1.edge.condition.accepts (b₁.mux.observe value) && decide (v.1.mode = .oneShot))))
      (fun _ _ => rfl) fun _ _ => rfl
  · rw [hkeeps₁.pending, hkeeps₂.pending]
    exact hwaiting hlive on edge

/-- **A change of value** makes the same calls of the scheduler in both contexts. -/
theorem applyChange_agree (h : Joint label₁ label₂ b₁ b₂) (hlive : b₁.mux.isPoisoned = false)
    (signal : SignalId) (value : Logic) :
    Agree Fault.MissesSignal (fun _ _ => True) (Going label₁ label₂ b₁ b₂)
      (Moved label₁ label₂ b₁ b₂) (b₁.applyChange signal value) (b₂.applyChange signal value) := by
  have hsignals := h.sameWorld.1.signals
  have hsignal : b₁.native.signal? signal = b₂.native.signal? signal := by
    rw [Sim.signal?, hsignals, Sim.signal?]
  rw [applyChange_eq, applyChange_eq, hsignal]
  cases b₂.native.signal? signal with
  | none => exact ⟨by rw [missing, missing, hsignals], trivial⟩
  | some before =>
    dsimp only
    by_cases hsame : before.value = value
    · rw [if_pos hsame, if_pos hsame]
      exact ⟨trivial, .refl h, hlive⟩
    · rw [if_neg hsame, if_neg hsame]
      have hnoted : Moved label₁ label₂ b₁ b₂
          (b₁.note (.changed b₁.native.now before.name before.value value))
          (b₂.note (.changed b₂.native.now before.name before.value value)) :=
        h.note (by simp) (by simp)
      have hset := hnoted.joint.onSim (plain_withValue signal value)
      exact (reportTo_subscribers_agree hset.joint hlive signal value).ofNever.after
        (hnoted.trans hset)

/-- Events from the head of the queue make the same calls, one event after another. -/
theorem applyEvents_agree (es : List Event) :
    ∀ b₁ b₂ : SimBench (SchedulerRecord T), Joint label₁ label₂ b₁ b₂ →
      b₁.mux.isPoisoned = false →
      Agree Fault.MissesSignal (fun _ _ => True) (Going label₁ label₂ b₁ b₂)
        (Moved label₁ label₂ b₁ b₂) (applyEvents es b₁) (applyEvents es b₂) := by
  induction es with
  | nil => exact fun b₁ b₂ h hlive => ⟨trivial, .refl h, hlive⟩
  | cons e rest ih =>
    intro b₁ b₂ h hlive
    have hpopped : Moved label₁ label₂ b₁ b₂ b₁.popped b₂.popped := h.onSim plain_tail
    rw [applyEvents_cons, applyEvents_cons]
    refine ((applyChange_agree hpopped.joint hlive e.signal e.value).after hpopped).andThen ?_
    exact fun _ _ b₁' b₂' _ hgoing => (ih b₁' b₂' hgoing.joint hgoing.live).after hgoing.toMoved

/-! ### Steps of the simulator -/

/-- What comes after a flush in a step is the same in both contexts. -/
theorem advance_agree (h : Joint label₁ label₂ b₁ b₂) (hlive : b₁.mux.isPoisoned = false) :
    Agree Fault.MissesSignal Eq (Going label₁ label₂ b₁ b₂) (Moved label₁ label₂ b₁ b₂) b₁.advance
      b₂.advance := by
  rw [advance, advance, h.nextTime?_eq]
  cases b₂.native.nextTime? with
  | none => exact ⟨rfl, .refl h, hlive⟩
  | some now =>
    have hmoved := h.onSim (plain_now now)
    dsimp only
    rw [h.sameWorld.1.queue]
    have hevents := (applyEvents_agree (b₂.native.queue.takeWhile (·.time = now)) _ _
      hmoved.joint hlive).after hmoved
    generalize applyEvents _ (b₁.onSim _) = o₁ at hevents ⊢
    generalize applyEvents _ (b₂.onSim _) = o₂ at hevents ⊢
    obtain ⟨f, rfl, rfl, hmisses⟩ | ⟨error, b₁', b₂', rfl, rfl, hfailed⟩ |
      ⟨_, _, b₁', b₂', rfl, rfl, -, hgoing⟩ := hevents.cases
    · exact ⟨rfl, hmisses⟩
    · exact ⟨rfl, hfailed⟩
    · exact ⟨rfl, hgoing.toMoved.trans (hgoing.joint.onSim plain_steps), hgoing.live⟩

/-- **A step** comes to the same in both contexts, whatever the orders of its flushes are. -/
theorem step_agree (h : Joint label₁ label₂ b₁ b₂) (order₁ order₂ : VisitOrder SignalId) :
    Agree Fault.MissesSignal Eq (Going label₁ label₂ b₁ b₂) (Moved label₁ label₂ b₁ b₂)
      (b₁.step order₁) (b₂.step order₂) := by
  rw [step_eq, step_eq]
  refine (flush_agree h order₁ order₂).mapError.ofNever.andThen ?_
  exact fun _ _ b₁' b₂' _ hflushed =>
    (advance_agree hflushed.joint hflushed.live).after hflushed.toMoved

/-- Steps until the queue is empty come to the same. -/
theorem runSteps_agree (n : Nat) :
    ∀ (orders₁ orders₂ : Nat → VisitOrder SignalId) (b₁ b₂ : SimBench (SchedulerRecord T)),
      Joint label₁ label₂ b₁ b₂ →
      Agree Fault.MissesSignal (fun _ _ => True) (Going label₁ label₂ b₁ b₂)
        (Moved label₁ label₂ b₁ b₂) (runSteps n orders₁ b₁) (runSteps n orders₂ b₂) := by
  induction n with
  | zero =>
    intro orders₁ orders₂ b₁ b₂ h
    exact (step_agree h (orders₁ 0) (orders₂ 0)).andThen fun _ _ _ _ _ hgoing => ⟨trivial, hgoing⟩
  | succ n ih =>
    intro orders₁ orders₂ b₁ b₂ h
    have hstep := step_agree h (orders₁ 0) (orders₂ 0)
    rw [runSteps, runSteps]
    generalize b₁.step (orders₁ 0) = o₁ at hstep ⊢
    generalize b₂.step (orders₂ 0) = o₂ at hstep ⊢
    obtain ⟨f, rfl, rfl, hmisses⟩ | ⟨error, b₁', b₂', rfl, rfl, hfailed⟩ |
      ⟨result, _, b₁', b₂', rfl, rfl, rfl, hgoing⟩ := hstep.cases
    · exact ⟨rfl, hmisses⟩
    · exact ⟨rfl, hfailed⟩
    · cases result with
      | done => exact ⟨trivial, hgoing⟩
      | continued => exact (ih _ _ b₁' b₂' hgoing.joint).after hgoing.toMoved

/-- So do steps up to a limit. -/
theorem runStepsUntil_agree (limit : SimTime) (n : Nat) :
    ∀ (orders₁ orders₂ : Nat → VisitOrder SignalId) (b₁ b₂ : SimBench (SchedulerRecord T)),
      Joint label₁ label₂ b₁ b₂ →
      Agree Fault.MissesSignal (fun _ _ => True) (Going label₁ label₂ b₁ b₂)
        (Moved label₁ label₂ b₁ b₂) (runStepsUntil limit n orders₁ b₁)
        (runStepsUntil limit n orders₂ b₂) := by
  -- the flush after the last step
  have hlast : ∀ {b₁ b₂ : SimBench (SchedulerRecord T)} (order₁ order₂ : VisitOrder SignalId),
      Joint label₁ label₂ b₁ b₂ →
      Agree Fault.MissesSignal (fun _ _ => True) (Going label₁ label₂ b₁ b₂)
        (Moved label₁ label₂ b₁ b₂)
        (((b₁.flush order₁).mapError SimError.mux).andThen fun _ b => .done () b)
        (((b₂.flush order₂).mapError SimError.mux).andThen fun _ b => .done () b) :=
    fun order₁ order₂ h => (flush_agree h order₁ order₂).mapError.ofNever.andThen
      fun _ _ _ _ _ hgoing => ⟨trivial, hgoing⟩
  induction n with
  | zero => exact fun orders₁ orders₂ b₁ b₂ h => hlast (orders₁ 0) (orders₂ 0) h
  | succ n ih =>
    intro orders₁ orders₂ b₁ b₂ h
    rw [runStepsUntil, runStepsUntil, h.nextTime?_eq]
    by_cases hnext : b₂.native.nextTime?.any (·.fs ≤ limit.fs) = true
    · rw [if_pos hnext, if_pos hnext]
      have hstep := step_agree h (orders₁ 0) (orders₂ 0)
      generalize b₁.step (orders₁ 0) = o₁ at hstep ⊢
      generalize b₂.step (orders₂ 0) = o₂ at hstep ⊢
      obtain ⟨f, rfl, rfl, hmisses⟩ | ⟨error, b₁', b₂', rfl, rfl, hfailed⟩ |
        ⟨_, _, b₁', b₂', rfl, rfl, -, hgoing⟩ := hstep.cases
      · exact ⟨rfl, hmisses⟩
      · exact ⟨rfl, hfailed⟩
      · exact (ih _ _ b₁' b₂' hgoing.joint).after hgoing.toMoved
    · rw [if_neg hnext, if_neg hnext]
      exact hlast (orders₁ 0) (orders₂ 0) h

/-- **A run** comes to the same in both contexts. -/
theorem run_agree (h : Joint label₁ label₂ b₁ b₂) (orders₁ orders₂ : Nat → VisitOrder SignalId) :
    Agree Fault.MissesSignal Eq (Going label₁ label₂ b₁ b₂) (Moved label₁ label₂ b₁ b₂)
      (b₁.run orders₁) (b₂.run orders₂) := by
  rw [run, run, h.sameWorld.1.queue]
  refine (runSteps_agree b₂.native.queue.length orders₁ orders₂ b₁ b₂ h).andThen ?_
  exact fun _ _ b₁' b₂' _ hgoing => ⟨hgoing.joint.sameWorld.1.now,
    hgoing.toMoved.trans (hgoing.joint.note (by simp) (by simp)), hgoing.live⟩

theorem runUntil_agree (h : Joint label₁ label₂ b₁ b₂)
    (orders₁ orders₂ : Nat → VisitOrder SignalId) (limit : SimTime) :
    Agree Fault.MissesSignal Eq (Going label₁ label₂ b₁ b₂) (Moved label₁ label₂ b₁ b₂)
      (b₁.runUntil orders₁ limit) (b₂.runUntil orders₂ limit) := by
  rw [runUntil, runUntil, h.sameWorld.1.queue]
  refine (runStepsUntil_agree limit b₂.native.queue.length orders₁ orders₂ b₁ b₂ h).andThen ?_
  exact fun _ _ b₁' b₂' _ hgoing => ⟨hgoing.joint.sameWorld.1.now, hgoing⟩

end Bench

end EdgeWait
