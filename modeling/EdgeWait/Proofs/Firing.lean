/-
Reports to a context whose scheduler never fails.

* `deliver_fires` — a report to a holding hands its tasks over if the value is accepted;
* `reportTo_fires`, `applyChange_fires` — so do reports to several holdings in turn, and a change;
* `deliver_labelled_fires` — so does a report to the key that a request has been answered, whatever
  has become of its registration.

Design notes: a scheduler never fails if it never will, whatever it is called for (`NeverFails`).
The key of a hand-over is that of the callback for which it is made (`HandOver`).  Holdings are
chosen for a report by what they look like (`Reports`), which is all that two contexts have in
common.
-/
import EdgeWait.Proofs.Accord
import EdgeWait.Proofs.Replay
import EdgeWait.Proofs.Wakeups

namespace EdgeWait

open Sim

/-! ### Schedulers that never fail -/

section Scheduler

variable {T : Type} [Scheduler T]

/-- The scheduler after some calls. -/
def afterCalls (calls : List (List TaskId)) (t : T) : T :=
  calls.foldl (fun t tasks => (Scheduler.scheduleMany t tasks).2) t

/-- The scheduler does not fail, however often it is called, and for whatever tasks. -/
def NeverFails (t : T) : Prop :=
  ∀ calls tasks, (Scheduler.scheduleMany (afterCalls calls t) tasks).1 = .ok ()

theorem NeverFails.scheduleMany {t : T} (h : NeverFails t) (tasks : List TaskId) :
    ∃ t', Scheduler.scheduleMany t tasks = (.ok (), t') ∧ NeverFails t' :=
  ⟨_, Prod.ext (h [] tasks) rfl, fun calls => h (tasks :: calls)⟩

/-- To keep a record of the calls does not matter. -/
theorem NeverFails.recorded {t : T} (h : NeverFails t) (calls : List SchedulerCall) :
    NeverFails (⟨t, calls⟩ : SchedulerRecord T) := by
  intro lists tasks
  have hsame : ∀ (lists : List (List TaskId)) (r : SchedulerRecord T),
      (afterCalls lists r).scheduler = afterCalls lists r.scheduler := by
    intro lists
    induction lists with
    | nil => exact fun r => rfl
    | cons tasks rest ih => exact fun r => ih _
  have hafter := hsame lists ⟨t, calls⟩
  show (Scheduler.scheduleMany (afterCalls lists (⟨t, calls⟩ : SchedulerRecord T)).scheduler
    tasks).1 = .ok ()
  rw [hafter]
  exact h lists tasks

end Scheduler

/-- A script without a failure. -/
theorem neverFails_of_answer {t : ScriptedScheduler} (h : ∀ calls, t.answer calls = .ok ()) :
    NeverFails t := by
  intro lists tasks
  induction lists generalizing t with
  | nil => exact h _
  | cons first rest ih => exact ih h

/-! ### Hand-overs -/

/-- A call of the scheduler: the key that has been reported to, and the tasks. -/
structure HandOver where
  key : RegistrationKey
  tasks : List TaskId
deriving DecidableEq

/-- The hand-over that a call of a callback comes to, if any. -/
def Call.handOver {T : Type} (call : Call T) : Option HandOver :=
  call.woken.map fun r => ⟨call.callback.key, r.tasks⟩

/-- The hand-over of a holding. -/
def handOverOf (e : SimHolding) : HandOver := ⟨e.key, e.registration.tasks⟩

namespace Bench

variable {T : Type} {c c' : Sim} {label : Nat → Option Nat}
  {b b' : SimBench (SchedulerRecord T)} {L : List SimHolding} {value v : Logic}

/-- Simulators that agree can stand for each other. -/
theorem Side.agrees (h : Side c label b L) (hworld : SameWorld c' c) (hsteps : c.steps = c'.steps) :
    Side c' label b L := by
  obtain ⟨hcarries, hcounted⟩ := h.tracked.extra
  have hserved := hcarries.world
  refine ⟨⟨h.tracked.roster, ⟨hcarries.serves, ⟨hcarries.numbered.sorted,
    hcarries.numbered.issued_at⟩, hcarries.counted, ?_⟩, hcounted.trans hsteps⟩, h.unlabelled⟩
  exact ⟨hserved.now.trans hworld.now, hserved.queue.trans hworld.queue,
    hserved.nextSeq.trans hworld.nextSeq, hserved.signals.trans hworld.signals⟩

/-- A report to a holding matches its registration if the value is accepted. -/
theorem woken_of_mem (h : Side c label b L) (hlive : b.mux.isPoisoned = false) {e : SimHolding}
    (he : e ∈ L) : b.woken e.key value =
      if e.registration.accepts (b.mux.observe value) then some e.registration else none := by
  have hget : b.mux.registration? e.key = some e.registration := h.tracked.roster.get?_of_mem he
  rw [woken, hlive, if_neg Bool.false_ne_true, hget, Option.filter_some]

variable [Scheduler T]

/-- The context is in order, and so will be its scheduler. -/
structure Willing (b : SimBench (SchedulerRecord T)) : Prop where
  live : b.mux.isPoisoned = false
  scheduler : NeverFails b.scheduler

/-- So it is when nothing has been done to either. -/
theorem Willing.keep {b b' : SimBench (SchedulerRecord T)} (h : Willing b)
    (hpoisoned : b'.mux.isPoisoned = b.mux.isPoisoned) (hscheduler : b'.scheduler = b.scheduler) :
    Willing b' := by
  refine ⟨hpoisoned.trans h.live, ?_⟩
  rw [hscheduler]
  exact h.scheduler

/-- **A report to a holding** hands its tasks over if the value is accepted. -/
theorem deliver_fires (h : Side c label b L) (hwilling : Willing b) {e : SimHolding} (he : e ∈ L)
    (hobserve : b.mux.observe value = v) :
    ∃ d b', b.deliver e.key value = .done d b' ∧ Willing b' ∧
      Side c label b' (L.filter fun f => !(decide (f.key = e.key) && isSpent v f)) ∧
      Keeps b b' ∧
      b'.resumed =
        b.resumed ++ if e.registration.accepts v then [e.registration.tasks] else [] := by
  obtain ⟨b', hside, hkeeps, hreport⟩ := deliver_side h hwilling.live he hobserve
  obtain ⟨t, ht, hanswer⟩ : ∃ t, NeverFails t ∧
      handOver b.scheduler e.registration.demand v = (none, t) := by
    rw [handOver]
    split
    · obtain ⟨t, hcall, ht⟩ := hwilling.scheduler.scheduleMany e.registration.demand.tasks
      rw [hcall]
      exact ⟨t, ht, rfl⟩
    · exact ⟨b.scheduler, hwilling.scheduler, rfl⟩
  have hresumed := deliver_resumed b e.key value
  rw [woken_of_mem h hwilling.live he, hobserve] at hresumed
  rw [hanswer] at hreport
  generalize b.deliver e.key value = o at hreport hresumed ⊢
  cases hreport with
  | done d hup =>
    refine ⟨d, b', rfl, ⟨hup, ht⟩, hside, hkeeps, ?_⟩
    have hmore : b'.resumed = _ := hresumed
    rw [hmore]
    split <;> rfl

/-- **Reports to several holdings**, in turn, hand over the tasks of those that accept the value. -/
theorem reportTo_fires (value : Logic) (S : List SimHolding) :
    ∀ (b : SimBench (SchedulerRecord T)) (L : List SimHolding), Side c label b L → Willing b →
      b.mux.observe value = v → S.Sublist L →
      ∃ b', reportTo value (S.map fun e => (e.handle, callbackOf e)) b = .done () b' ∧
        Willing b' ∧
        Side c label b' (L.filter fun f => !(decide (f.key ∈ S.map (·.key)) && isSpent v f)) ∧
        Keeps b b' ∧
        b'.resumed = b.resumed ++ (S.filter (·.registration.accepts v)).map
          (·.registration.tasks) ∧
        (reportCalls value (S.map fun e => (e.handle, callbackOf e)) b).filterMap Call.handOver =
          (S.filter (·.registration.accepts v)).map handOverOf := by
  induction S with
  | nil =>
    intro b L h hwilling _ _
    refine ⟨b, rfl, hwilling, ?_, .refl b, (List.append_nil _).symm, rfl⟩
    simpa using h
  | cons e S ih =>
    intro b L h hwilling hobserve hsub
    have he : e ∈ L := hsub.subset List.mem_cons_self
    have hkeys := h.tracked.roster.keys_nodup.sublist (hsub.map (·.key))
    have hisLive := isLive_of_mem h.tracked.carries he
    have hcounted : Side c label
        (b.onSim fun s => { s with delivered := s.delivered + 1 }) L :=
      (h.onSim plain_delivered).agrees ⟨rfl, rfl, rfl, rfl⟩ rfl
    simp only [List.map_cons, reportTo, reportCalls, if_pos hisLive]
    set b₁ := b.onSim fun s => { s with delivered := s.delivered + 1 } with hb₁
    obtain ⟨d, b₂, heq, hwilling₂, hside₂, hkeeps₂, hresumed₂⟩ :=
      deliver_fires hcounted ⟨hwilling.live, hwilling.scheduler⟩ he hobserve
    have heq' : b₁.deliver (callbackOf e).key value = .done d b₂ := heq
    obtain ⟨b', hrest, hwilling', hside', hkeeps', hresumed', hcalls'⟩ :=
      ih b₂ _ hside₂ hwilling₂ (hkeeps₂.of_onSim.observe_eq value ▸ hobserve)
        (sublist_filter_isSpent v hsub hkeys)
    simp only [heq']
    refine ⟨b', hrest, hwilling', ?_, hkeeps₂.of_onSim.trans hkeeps', ?_, ?_⟩
    · rw [filter_filter_isSpent] at hside'
      exact hside'
    · have hstart : b₁.resumed = b.resumed := rfl
      rw [hresumed', hresumed₂, hstart, List.filter_cons]
      split
      · rw [List.append_assoc]
        rfl
      · rw [List.append_nil]
    · -- the head is called for its own key
      have hcall : Call.handOver ⟨b, e.handle, callbackOf e, value⟩ =
          if e.registration.accepts v then some (handOverOf e) else none := by
        have hwoken : Call.woken ⟨b, e.handle, callbackOf e, value⟩ = b.woken e.key value :=
          if_pos hisLive
        rw [Call.handOver, hwoken, woken_of_mem h hwilling.live he, hobserve]
        split <;> rfl
      rw [List.filterMap_cons, hcall, hcalls', List.filter_cons]
      cases e.registration.accepts v <;> rfl

/-! ### Holdings chosen by what they look like -/

/-- The holdings among the chosen ones that accept a value. -/
def fired (label : Nat → Option Nat) (q : Demand SignalId × Option Nat → Bool) (v : Logic)
    (L : List SimHolding) : List SimHolding :=
  (L.filter fun e => q (view label e)).filter (·.registration.accepts v)

/-- The value has been reported to the chosen holdings of `b`, which has led to `b'`. -/
structure Reports (c' : Sim) (label : Nat → Option Nat)
    (q : Demand SignalId × Option Nat → Bool) (v : Logic) (b : SimBench (SchedulerRecord T))
    (L : List SimHolding) (b' : SimBench (SchedulerRecord T)) : Prop where
  willing : Willing b'
  side : Side c' label b' (L.filter fun e => !(q (view label e) && isSpent v e))
  keeps : Keeps b b'
  resumed : b'.resumed = b.resumed ++ (fired label q v L).map (·.registration.tasks)

/-- A holding is on a signal. -/
def isOn (signal : SignalId) (w : Demand SignalId × Option Nat) : Bool :=
  decide (w.1.signal = signal)

/-- A holding has been subscribed by a request. -/
def isOf (request : Nat) (w : Demand SignalId × Option Nat) : Bool := decide (w.2 = some request)

/-- **A change** is reported to the holdings on the signal. -/
theorem applyChange_fires (h : Side c label b L) (hwilling : Willing b) {signal : SignalId}
    {before : Signal} (hbefore : b.native.signal? signal = some before)
    (hchange : before.value ≠ value) :
    ∃ b', b.applyChange signal value = .done () b' ∧
      Reports (c.withValue signal value) label (isOn signal) (b.mux.observe value) b L b' ∧
      (b.changeCalls signal value).filterMap Call.handOver =
        (fired label (isOn signal) (b.mux.observe value) L).map handOverOf := by
  rw [applyChange_eq, changeCalls, hbefore]
  simp only [if_neg hchange]
  have hcore : SameCore b (b.note (.changed b.native.now before.name before.value value)) :=
    sameCore_note b (by simp)
  have hset := (h.congr hcore).onSim (plain_withValue signal value)
  set b₁ := (b.note (.changed b.native.now before.name before.value value)).onSim fun s =>
    s.withValue signal value with hb₁
  have hcarries := hset.tracked.carries.extra
  rw [hcarries.serves.subscribers_eq hcarries.numbered signal]
  obtain ⟨b', heq, hwilling', hside, hkeeps, hresumed, hcalls⟩ :=
    reportTo_fires value _ b₁ L hset ⟨hwilling.live, hwilling.scheduler⟩ rfl
      List.filter_sublist
  rw [filter_isSpent_on h.tracked.roster] at hside
  have hnoted : Keeps b b₁ := by
    refine ⟨⟨rfl, rfl, rfl⟩, rfl, id, ?_⟩
    show b.log.issued <+: (b.note _).log.issued
    rw [hcore.issued]
  exact ⟨b', heq, ⟨hwilling', hside, hnoted.trans hkeeps, hresumed⟩, hcalls⟩

omit [Scheduler T] in
/-- A request has subscribed no more than one holding. -/
theorem filter_isOf (h : Side c label b L) {key : RegistrationKey} {request : Nat}
    (hkey : ∀ e ∈ L, label e.number = some request ↔ e.key = key) :
    (∃ e ∈ L, e.key = key ∧ L.filter (fun f => isOf request (view label f)) = [e]) ∨
      (∀ e ∈ L, e.key ≠ key) ∧ L.filter (fun f => isOf request (view label f)) = [] := by
  have hchosen : L.filter (fun f => isOf request (view label f)) = L.filter (·.key = key) :=
    List.filter_congr fun e he => decide_eq_decide.mpr (hkey e he)
  rw [hchosen]
  by_cases hmem : ∃ e ∈ L, e.key = key
  · obtain ⟨e, he, rfl⟩ := hmem
    have hperm := (Subscriptions.perm_filter_key h.tracked.roster.keys_nodup he).filter
      fun f => decide (f.key = e.key)
    exact .inl ⟨e, he, rfl, by simpa [List.filter_filter] using hperm⟩
  · have habsent : ∀ e ∈ L, e.key ≠ key := fun e he heq => hmem ⟨e, he, heq⟩
    exact .inr ⟨habsent, List.filter_eq_nil_iff.mpr fun e he => by simpa using habsent e he⟩

/-- **A report to the key of a request**, whose registration may be gone. -/
theorem deliver_labelled_fires (h : Side c label b L) (hwilling : Willing b)
    {key : RegistrationKey} {request : Nat}
    (hkey : ∀ e ∈ L, label e.number = some request ↔ e.key = key) (value : Logic) :
    ∃ d b', b.deliver key value = .done d b' ∧
      Reports c label (isOf request) (b.mux.observe value) b L b' ∧
      ((b.woken key value).toList.map fun r => (⟨key, r.tasks⟩ : HandOver)) =
        (fired label (isOf request) (b.mux.observe value) L).map handOverOf := by
  have hleft : (L.filter fun e => !(isOf request (view label e) &&
      isSpent (b.mux.observe value) e)) =
        L.filter fun e => !(decide (e.key = key) && isSpent (b.mux.observe value) e) := by
    refine List.filter_congr fun e he => ?_
    rw [isOf, view, decide_eq_decide.mpr (hkey e he)]
  -- the registration is live, or the report finds it gone
  obtain ⟨e, he, rfl, hone⟩ | ⟨habsent, hnone⟩ := filter_isOf h hkey
  · obtain ⟨d, b', heq, hwilling', hside, hkeeps, hresumed⟩ := deliver_fires h hwilling he rfl
    refine ⟨d, b', heq, ⟨hwilling', ?_, hkeeps, ?_⟩, ?_⟩
    · rw [hleft]
      exact hside
    · rw [hresumed, fired, hone, List.filter_singleton]
      cases e.registration.accepts (b.mux.observe value) <;> rfl
    · rw [woken_of_mem h hwilling.live he, fired, hone, List.filter_singleton]
      cases e.registration.accepts (b.mux.observe value) <;> rfl
  · have hgone : b.mux.registration? key = none := h.tracked.roster.get?_eq_none_iff.mpr habsent
    have hissued : (b.afterStale key).log.issued = b.log.issued := Log.issued_push (by simp)
    have hcore : SameCore b (b.afterStale key) := ⟨rfl, rfl, rfl, rfl, rfl, rfl, hissued⟩
    refine ⟨.stale, b.afterStale key, deliver_of_gone hwilling.live hgone value,
      ⟨⟨hwilling.live, hwilling.scheduler⟩, ?_, ⟨⟨rfl, rfl, rfl⟩, rfl, id, ?_⟩, ?_⟩, ?_⟩
    · rw [hleft, List.filter_eq_self.mpr fun e he => by simp [habsent e he]]
      exact h.congr hcore
    · rw [hissued]
    · rw [fired, hnone]
      exact (List.append_nil _).symm
    · rw [fired, hnone, woken, hwilling.live, hgone]
      rfl

end Bench

end EdgeWait
