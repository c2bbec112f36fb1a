/-
What the counters of a context tell.

* `appeared_perm` — what is live after a turn and was not before is what the turn has made;
* `reckoned_turn` — how one turn changes the counters;
* `statistics` — so the counters account for every run: for the reports that have come in, for the
  calls of the scheduler and the tasks in them, for the registrations that have been made, and for
  the waits behind them.

Design notes: the context does not keep the registrations that it has made, so they are read off the
arena before and after each turn.  Counters are natural numbers here; they do not wrap.
-/
import EdgeWait.Proofs.Conservation
import EdgeWait.Proofs.FailFast

namespace EdgeWait

/-- The number of tasks that a call has resumed, which is none if it has failed. -/
def SchedulerCall.taken : SchedulerCall → Nat
  | .resumed tasks (.ok _) => tasks.length
  | .resumed _ (.error _) => 0
  | .finalized => 0

/-- To flush the pending waits takes as many tasks as there are waits. -/
theorem PendingWaits.sum_demands {σ : Type} [DecidableEq σ] (policy : BatchPolicy)
    (order : VisitOrder σ) (p : PendingWaits σ) :
    ((p.demands policy order).map (·.tasks.length)).sum = p.size := by
  have hlength := (p.waits_demands_perm policy order).length_eq
  rw [List.length_flatMap] at hlength
  rw [← length_waits, ← hlength]
  congr 1
  refine List.map_congr_left fun d _ => ?_
  rw [Demand.waits, List.length_map]

namespace Bench

open Subscriptions

variable {N T σ η : Type}

/-! ### The registrations that a run makes -/

/-- The registrations that are live in `b'` under keys that are not live in `b`. -/
def appeared (b b' : Bench N T σ η) : List (Registration σ) :=
  (b'.mux.subscriptions.arena.toList.filter fun e => (b.mux.registration? e.1).isNone).map (·.2)

section Appeared

variable {I : List (Holding σ η) → Arena σ → N → List RegistrationKey → Prop} {b b' : Bench N T σ η}
  {L kept new : List (Holding σ η)}

/-- **What has appeared** is what has been added to the roster. -/
theorem appeared_perm (h : b.Tracked I L) (h' : b'.Tracked I (kept ++ new)) (hkept : kept ⊆ L)
    (hfresh : ∀ e ∈ new, ∀ f ∈ L, f.key ≠ e.key) :
    (appeared b b').Perm (new.map (·.registration)) := by
  have hperm := (h'.roster.toList_perm.filter fun e => (b.mux.registration? e.1).isNone).map (·.2)
  have hold : ((kept.map fun e => (e.key, e.registration)).filter
      fun e => (b.mux.registration? e.1).isNone) = [] := by
    rw [List.filter_eq_nil_iff]
    intro p hp
    obtain ⟨e, he, rfl⟩ := List.mem_map.mp hp
    have hlive : b.mux.registration? e.key = some e.registration :=
      h.roster.get?_of_mem (hkept he)
    simp [hlive]
  have hnew : ((new.map fun e => (e.key, e.registration)).filter
      fun e => (b.mux.registration? e.1).isNone) = new.map fun e => (e.key, e.registration) := by
    rw [List.filter_eq_self]
    intro p hp
    obtain ⟨e, he, rfl⟩ := List.mem_map.mp hp
    have hgone : b.mux.registration? e.key = none :=
      h.roster.get?_eq_none_iff.mpr fun f hf => hfresh e he f hf
    simp [hgone]
  rw [List.map_append, List.filter_append, hold, hnew, List.nil_append, List.map_map] at hperm
  exact hperm

theorem appeared_of_added (h : b.Tracked I L) (h' : b'.Tracked I (L ++ new)) :
    (appeared b b').Perm (new.map (·.registration)) := by
  refine appeared_perm h h' (List.Subset.refl L) ?_
  intro e he f hf hkey
  have hdisjoint := h'.roster.keys_nodup
  rw [List.map_append, List.nodup_append'] at hdisjoint
  exact hdisjoint.2.2 (List.mem_map_of_mem hf) (hkey ▸ List.mem_map_of_mem he)

theorem appeared_of_kept (h : b.Tracked I L) (h' : b'.Tracked I kept) (hkept : kept ⊆ L) :
    appeared b b' = [] := by
  have hnone : b'.Tracked I (kept ++ []) := by rwa [List.append_nil]
  exact List.perm_nil.mp (appeared_perm h hnone hkept (by simp))

end Appeared

variable [NativeLayer N σ η] [Scheduler T] [DecidableEq σ] [LogText σ] [LogText η]

/-- The registrations that a turn makes. -/
def made (b : RecordedBench N T σ η) (t : Turn N T σ) : List (Registration σ) :=
  match b.turn t with
  | .error _ => []
  | .ok b' => appeared b b'

/-- The registrations that a run makes, in turn. -/
def allMade : List (Turn N T σ) → RecordedBench N T σ η → List (Registration σ)
  | [], _ => []
  | t :: rest, b =>
    b.made t ++
      match b.turn t with
      | .error _ => []
      | .ok b => allMade rest b

/-! ### One turn -/

/-- The reports and the calls that a context has counted are those that it has had. -/
structure Tallied (b : RecordedBench N T σ η) : Prop where
  notifications : b.mux.counters.notifications =
    b.mux.counters.fired + b.mux.counters.ignored + b.mux.counters.stale
  dispatchCalls : b.mux.bridge.dispatchCalls = b.mux.counters.fired
  fired : b.mux.counters.fired = b.resumed.length
  dispatchedTasks : b.mux.bridge.dispatchedTasks = (b.scheduler.calls.map (·.taken)).sum

/-- What has happened to the counters between `b` and `b'`, when some registrations have been made,
some have matched, so many pending waits have been dropped, and some errors have been reported. -/
structure Reckoned (b : RecordedBench N T σ η) (made matched : List (Registration σ)) (dropped : Nat)
    (errors : List MuxError) (b' : RecordedBench N T σ η) : Prop where
  tallied : Tallied b → Tallied b'
  registrations : b'.mux.counters.registrations = b.mux.counters.registrations + made.length
  batchedRegistrations : b'.mux.counters.batchedRegistrations =
    b.mux.counters.batchedRegistrations + made.countP (1 < ·.tasks.length)
  /-- What was live, or has been made, is live, or it has been cancelled, or it has fired. -/
  live : b.mux.activeRegistrations + b.mux.counters.cancelled + made.length =
    b'.mux.activeRegistrations + b'.mux.counters.cancelled + matched.countP (·.mode = .oneShot)
  /-- What was pending, or has been asked for, is pending, or behind a registration, or dropped. -/
  waits : (∀ n, .poolExhausted n ∉ errors) →
    b'.mux.counters.waitsAdded + b.mux.pending.size =
      b.mux.counters.waitsAdded + (made.map (·.tasks.length)).sum + b'.mux.pending.size + dropped

omit [NativeLayer N σ η] [Scheduler T] [DecidableEq σ] [LogText σ] [LogText η] in
theorem Reckoned.refl (b : RecordedBench N T σ η) : Reckoned b [] [] 0 [] b :=
  ⟨id, rfl, rfl, rfl, fun _ => rfl⟩

omit [NativeLayer N σ η] [Scheduler T] [DecidableEq σ] [LogText σ] [LogText η] in
theorem Reckoned.trans {b b' b'' : RecordedBench N T σ η}
    {made made' matched matched' : List (Registration σ)} {dropped dropped' : Nat}
    {errors errors' : List MuxError} (h : Reckoned b made matched dropped errors b')
    (h' : Reckoned b' made' matched' dropped' errors' b'') :
    Reckoned b (made ++ made') (matched ++ matched') (dropped + dropped') (errors ++ errors')
      b'' := by
  refine ⟨fun htallied => h'.tallied (h.tallied htallied), ?_, ?_, ?_, ?_⟩
  · rw [h'.registrations, h.registrations, List.length_append, Nat.add_assoc]
  · rw [h'.batchedRegistrations, h.batchedRegistrations, List.countP_append, Nat.add_assoc]
  · have hfirst := h.live
    have hlater := h'.live
    rw [List.length_append, List.countP_append]
    omega
  · intro hroom
    have hfirst := h.waits fun n hn => hroom n (List.mem_append_left _ hn)
    have hlater := h'.waits fun n hn => hroom n (List.mem_append_right _ hn)
    rw [List.map_append, List.sum_append]
    omega

section Reckoning

variable {I : List (Holding σ η) → Arena σ → NativeRecord N σ η → List RegistrationKey → Prop}
  {b b' : RecordedBench N T σ η} {L kept new : List (Holding σ η)} {t : Turn N T σ}

omit [NativeLayer N σ η] [Scheduler T] [DecidableEq σ] [LogText σ] [LogText η] in
/-- Without a report there is nothing new to tally. -/
theorem Tallied.of_quiet (h : Tallied b)
    (hnotifications : b'.mux.counters.notifications = b.mux.counters.notifications)
    (hfired : b'.mux.counters.fired = b.mux.counters.fired)
    (hignored : b'.mux.counters.ignored = b.mux.counters.ignored)
    (hstale : b'.mux.counters.stale = b.mux.counters.stale)
    (hbridge : b'.mux.bridge = b.mux.bridge) (hcalls : b'.scheduler.calls = b.scheduler.calls) :
    Tallied b' := by
  have hresumed : b'.resumed = b.resumed := by rw [resumed, hcalls, resumed]
  refine ⟨?_, ?_, ?_, ?_⟩
  · rw [hnotifications, hfired, hignored, hstale, h.notifications]
  · rw [hbridge, hfired, h.dispatchCalls]
  · rw [hfired, hresumed, h.fired]
  · rw [hbridge, hcalls, h.dispatchedTasks]

omit [NativeLayer N σ η] [DecidableEq σ] [LogText σ] [LogText η] in
/-- A hand-over is tallied as one call, whether or not it succeeds. -/
theorem Tallied.of_dispatch {b₁ : RecordedBench N T σ η} {tasks : List TaskId}
    {o : Outcome MuxError (RecordedBench N T σ η) Unit} (h : Tallied b)
    (hframe : Frame b b₁)
    (hcounters : b₁.mux.counters = { b.mux.counters with
      notifications := b.mux.counters.notifications + 1
      fired := b.mux.counters.fired + 1 })
    (hhand : DispatchResult b₁ tasks o) (hfinal : o.final = .ok b') : Tallied b' := by
  have hresumed := hhand.resumed hfinal
  rw [resumed_of_scheduler hframe.scheduler] at hresumed
  have hsame := (hhand.handedOver hfinal).counters
  obtain ⟨hdispatch, htasks⟩ :
      b'.mux.bridge.dispatchCalls = b.mux.bridge.dispatchCalls + 1 ∧
      b'.mux.bridge.dispatchedTasks = (b'.scheduler.calls.map (·.taken)).sum := by
    cases hhand with
    | done b₂ same call bridge =>
      obtain rfl := Except.ok.inj hfinal
      refine ⟨by rw [bridge, hframe.bridge], ?_⟩
      rw [bridge, hframe.bridge, h.dispatchedTasks, scheduleMany_calls call, hframe.scheduler,
        List.map_append, List.sum_append]
      rfl
    -- to finalize the scheduler takes no task, so it adds nothing to the sum
    | failed b₂ cause t same call scheduler bridge =>
      obtain rfl := Except.ok.inj hfinal
      refine ⟨by rw [bridge, hframe.bridge], ?_⟩
      have hcalls : b₂.scheduler.calls =
          b.scheduler.calls ++ [.resumed tasks (.error cause), .finalized] := by
        rw [scheduler]
        show t.calls ++ [.finalized] = _
        rw [scheduleMany_calls call, hframe.scheduler, List.append_assoc]
        rfl
      rw [bridge, hframe.bridge, h.dispatchedTasks, hcalls, List.map_append, List.sum_append]
      rfl
  rw [hcounters] at hsame
  refine ⟨?_, ?_, ?_, htasks⟩
  · have hnotifications := h.notifications
    simp only [hsame]
    omega
  · rw [hdispatch, hsame, h.dispatchCalls]
  · rw [hresumed, hsame, List.length_append, h.fired]
    rfl

/-- To make registrations is counted as such. -/
theorem Reckoned.of_registers (h : b.Tracked I L) (hturn : b.turn t = .ok b')
    (h' : b'.Tracked I (L ++ new)) (hbridge : b'.mux.bridge = b.mux.bridge)
    (hcalls : b'.scheduler.calls = b.scheduler.calls) (hmatched : b.matched t = none) {asked : Nat}
    (hcounters : b.mux.counters.Registers asked new.length (several new) b'.mux.counters)
    (hwaits : (∀ n, .poolExhausted n ∉ errors [t] b) → asked + b.mux.pending.size =
      (new.map (·.registration.tasks.length)).sum + b'.mux.pending.size + (b.dropped t).card) :
    Reckoned b (b.made t) (b.matched t).toList (b.dropped t).card (errors [t] b) b' := by
  have hmade : (b.made t).Perm (new.map (·.registration)) := by
    rw [made, hturn]
    exact appeared_of_added h h'
  have hlength : (b.made t).length = new.length := by
    rw [hmade.length_eq, List.length_map]
  refine ⟨?_, ?_, ?_, ?_, ?_⟩
  · intro htallied
    exact htallied.of_quiet hcounters.notifications hcounters.fired hcounters.ignored
      hcounters.stale hbridge hcalls
  · rw [hcounters.registrations, hlength]
  · rw [hcounters.batchedRegistrations, hmade.countP_eq, List.countP_map]
    rfl
  · have hlive : b'.mux.activeRegistrations = L.length + new.length := by
      rw [← List.length_append]
      exact h'.roster.live_eq
    have hbefore : b.mux.activeRegistrations = L.length := h.roster.live_eq
    rw [hlive, hbefore, hcounters.cancelled, hlength, hmatched]
    simp only [Option.toList_none, List.countP_nil]
    omega
  · intro hroom
    have htasks : ((b.made t).map (·.tasks.length)).sum =
        (new.map (·.registration.tasks.length)).sum := by
      rw [(hmade.map _).sum_nat, List.map_map]
      rfl
    have hbalance := hwaits hroom
    rw [htasks, hcounters.waitsAdded]
    omega

/-- To end registrations makes none. -/
theorem Reckoned.of_kept (h : b.Tracked I L) (hturn : b.turn t = .ok b') (h' : b'.Tracked I kept)
    (hkept : kept ⊆ L) (htallied : Tallied b → Tallied b')
    (hwaitsAdded : b'.mux.counters.waitsAdded = b.mux.counters.waitsAdded)
    (hregistrations : b'.mux.counters.registrations = b.mux.counters.registrations)
    (hbatched : b'.mux.counters.batchedRegistrations = b.mux.counters.batchedRegistrations)
    (hlive : kept.length + b'.mux.counters.cancelled +
      (b.matched t).toList.countP (·.mode = .oneShot) = L.length + b.mux.counters.cancelled)
    (hpending : b.mux.pending.size = b'.mux.pending.size + (b.dropped t).card) :
    Reckoned b (b.made t) (b.matched t).toList (b.dropped t).card (errors [t] b) b' := by
  have hmade : b.made t = [] := by
    rw [made, hturn]
    exact appeared_of_kept h h' hkept
  have hbefore : b.mux.activeRegistrations = L.length := h.roster.live_eq
  have hafter : b'.mux.activeRegistrations = kept.length := h'.roster.live_eq
  refine ⟨htallied, ?_, ?_, ?_, ?_⟩
  · rw [hregistrations, hmade]
    rfl
  · rw [hbatched, hmade]
    rfl
  · rw [hbefore, hafter, hmade, List.length_nil]
    omega
  · intro _
    rw [hwaitsAdded, hmade, hpending]
    simp only [List.map_nil, List.sum_nil]
    omega

/-- A turn that changes nothing counts nothing. -/
theorem reckoned_refl (h : b.Tracked I L) (hturn : b.turn t = .ok b) (hmatched : b.matched t = none)
    (hdropped : b.dropped t = 0) :
    Reckoned b (b.made t) (b.matched t).toList (b.dropped t).card (errors [t] b) b := by
  refine .of_kept h hturn h (List.Subset.refl L) id rfl rfl rfl ?_ ?_
  · rw [hmatched]
    rfl
  · rw [hdropped]
    rfl

/-- A turn that subscribes for one task. -/
theorem reckoned_registerSingle (hI : Tracking I) (h : b.Tracked I L) (signal : σ) (edge : Edge)
    (task : TaskId) (mode : Mode) (hturn : b.turn t = .ok b')
    (hb : (b.registerSingle signal edge task mode).final = .ok b')
    (herror : ∀ n b₁, b.registerSingle signal edge task mode = .failed (.poolExhausted n) b₁ →
      .poolExhausted n ∈ errors [t] b)
    (hmatched : b.matched t = none) (hdropped : b.dropped t = 0) :
    Reckoned b (b.made t) (b.matched t).toList (b.dropped t).card (errors [t] b) b' := by
  cases hlive : b.mux.isPoisoned with
  | true =>
    rw [registerSingle_of_poisoned hlive] at hb
    obtain rfl := Except.ok.inj hb
    exact reckoned_refl h hturn hmatched hdropped
  | false =>
    obtain ⟨b₁, heq, htracked, hframe, -, -, -, hcounters, -⟩ | ⟨e, b₁, heq, hmade, hdemand⟩ :=
      registerSingle_spec hI h hlive signal edge task mode
    · have hexhausted := herror _ _ heq
      rw [heq] at hb
      obtain rfl := Except.ok.inj hb
      have hnone : b₁.Tracked I (L ++ []) := by rwa [List.append_nil]
      exact .of_registers h hturn hnone hframe.bridge (congrArg _ hframe.scheduler) hmatched
        hcounters fun hroom => absurd hexhausted (hroom _)
    · rw [heq] at hb
      obtain rfl := Except.ok.inj hb
      refine .of_registers h hturn hmade.tracked hmade.frame.bridge
        (congrArg _ hmade.frame.scheduler) hmatched hmade.counters fun _ => ?_
      have htasks : e.registration.tasks = [task] := congrArg Demand.tasks hdemand
      rw [hmade.pending, hdropped]
      simp [htasks]

/-- A turn that flushes. -/
theorem reckoned_flush (hI : Tracking I) (h : b.Tracked I L) {order : VisitOrder σ}
    (ht : t = .op (.flush order)) (hturn : b.turn t = .ok b') :
    Reckoned b (b.made t) (b.matched t).toList (b.dropped t).card (errors [t] b) b' := by
  subst ht
  have hb := hturn
  rw [turn, perform, final_andThen_done] at hb
  cases hlive : b.mux.isPoisoned with
  | true =>
    rw [flush_of_poisoned hlive] at hb
    obtain rfl := Except.ok.inj hb
    exact reckoned_refl h hturn rfl rfl
  | false =>
    have herrors : ∀ e b₁, b.flush order = .failed e b₁ → errors [.op (.flush order)] b = [e] := by
      intro e b₁ hfails
      rw [errors, perform, hfails]
      rfl
    have hresult := flush_spec hI h hlive order
    generalize b.flush order = o at hb hresult herrors
    cases hresult with
    | done new b₁ summary htracked hframe hpending _ hdemands _ hcounters =>
      obtain rfl := Except.ok.inj hb
      refine .of_registers h hturn htracked hframe.bridge (congrArg _ hframe.scheduler) rfl
        hcounters fun _ => ?_
      -- every pending wait is behind one of the new registrations
      have htasks : (new.map (·.registration.tasks.length)).sum = b.mux.pending.size := by
        rw [← b.mux.pending.sum_demands b.mux.policy order, ← hdemands, List.map_map]
        rfl
      rw [htasks, hpending]
      simp [dropped]
    | failed new b₁ htracked hframe _ _ _ _ _ hcounters =>
      obtain rfl := Except.ok.inj hb
      refine .of_registers h hturn htracked hframe.bridge (congrArg _ hframe.scheduler) rfl
        hcounters fun hroom => ?_
      rw [herrors _ _ rfl] at hroom
      exact absurd (List.mem_singleton_self _) (hroom _)

/-- A turn that reports a value. -/
theorem reckoned_deliver (hI : Tracking I) (h : b.Tracked I L) {key : RegistrationKey}
    {value : Logic} (ht : t = .op (.deliver key value)) (hturn : b.turn t = .ok b') :
    Reckoned b (b.made t) (b.matched t).toList (b.dropped t).card (errors [t] b) b' := by
  subst ht
  have hb := hturn
  rw [turn, perform, final_andThen_done] at hb
  cases hlive : b.mux.isPoisoned with
  | true =>
    rw [deliver_of_poisoned hlive] at hb
    obtain rfl := Except.ok.inj hb
    refine reckoned_refl h hturn ?_ rfl
    simp [matched, hlive]
  | false =>
    have hresult := deliver_spec hI h hlive key value
    generalize b.deliver key value = o at hb hresult
    cases hresult with
    | stale habsent =>
      obtain rfl := Except.ok.inj hb
      have hgone : b.mux.registration? key = none := h.roster.get?_eq_none_iff.mpr habsent
      refine .of_kept h hturn (h.congr rfl rfl (Log.issued_push (by simp))) (List.Subset.refl L) ?_
        rfl rfl rfl ?_ rfl
      -- a report is counted as such and by what has become of it
      · intro htallied
        refine ⟨?_, htallied.dispatchCalls, htallied.fired, htallied.dispatchedTasks⟩
        have hnotifications := htallied.notifications
        simp only [afterStale, note, count]
        omega
      · simp [matched, hlive, hgone, afterStale, note, count]
    | ignored e he hkey hdiffers =>
      obtain rfl := Except.ok.inj hb
      have hpresent : b.mux.registration? key = some e.registration :=
        hkey ▸ h.roster.get?_of_mem he
      refine .of_kept h hturn (h.congr rfl rfl rfl) (List.Subset.refl L) ?_ rfl rfl rfl ?_ rfl
      · intro htallied
        refine ⟨?_, htallied.dispatchCalls, htallied.fired, htallied.dispatchedTasks⟩
        have hnotifications := htallied.notifications
        simp only [afterIgnored, count]
        omega
      · simp [matched, hlive, hpresent, hdiffers, afterIgnored, count]
    | refused f => cases hb
    | fired e he hkey haccepts b₁ hready o' hhand =>
      subst hkey
      have hpresent : b.mux.registration? e.key = some e.registration := h.roster.get?_of_mem he
      have hmatched : b.matched (.op (.deliver e.key value)) = some e.registration := by
        simp [matched, hlive, hpresent, Option.filter, haccepts]
      rw [final_andThen_done (g := fun _ => _)] at hb
      have htallied : Tallied b → Tallied b' := fun htallied =>
        htallied.of_dispatch hready.frame hready.counters hhand hb
      have hsame := hhand.handedOver hb
      have hcounters := hsame.counters.trans hready.counters
      have htracked := hready.tracked.congr hsame.subscriptions hsame.native hsame.issued
      have hpending : b'.mux.pending = b.mux.pending := hsame.pending.trans hready.pending
      refine .of_kept h hturn htracked ?_ htallied (by rw [hcounters]) (by rw [hcounters])
        (by rw [hcounters]) ?_ (by rw [hpending]; rfl)
      · split
        · exact List.filter_subset_self L
        · exact List.Subset.refl L
      · rw [hcounters, hmatched]
        cases hmode : e.registration.mode with
        | persistent => simp [hmode]
        | oneShot =>
          have hlength := length_filter_key h.roster.keys_nodup he
          simp only [hmode, if_pos, Option.toList_some, List.countP_singleton, decide_true]
          omega

/-- A turn that records a wait. -/
theorem reckoned_addWait (h : b.Tracked I L) {signal : σ} {edge : Edge} {task : TaskId}
    (ht : t = .op (.addWait signal edge task)) (hturn : b.turn t = .ok b') :
    Reckoned b (b.made t) (b.matched t).toList (b.dropped t).card (errors [t] b) b' := by
  subst ht
  have hb := hturn
  rw [turn, perform] at hb
  rcases b.addWait_spec signal edge task with ⟨-, heq⟩ | heq
  · rw [heq] at hb
    cases hb
  · rw [heq] at hb
    obtain rfl := Except.ok.inj hb
    have hnone : (b.afterWait ⟨signal, edge, task⟩).Tracked I (L ++ []) := by
      rw [List.append_nil]
      exact h.congr rfl rfl rfl
    have hcounters : b.mux.counters.Registers 1 0 0
        (b.afterWait ⟨signal, edge, task⟩).mux.counters :=
      ⟨rfl, rfl, rfl, rfl, rfl, rfl, rfl, rfl⟩
    refine .of_registers h hturn hnone rfl rfl rfl hcounters fun _ => ?_
    simp only [afterWait, PendingWaits.size_push, dropped, List.map_nil, List.sum_nil,
      Multiset.card_zero]
    omega

/-- A turn that cancels a registration. -/
theorem reckoned_cancel (hI : Tracking I) (h : b.Tracked I L) {key : RegistrationKey}
    (ht : t = .op (.cancel key)) (hturn : b.turn t = .ok b') :
    Reckoned b (b.made t) (b.matched t).toList (b.dropped t).card (errors [t] b) b' := by
  subst ht
  have hresult := cancel_spec hI h key
  have hb := hturn
  rw [turn, perform] at hb
  generalize b.cancel key = o at hb hresult
  cases hresult with
  | gone habsent =>
    obtain rfl := Except.ok.inj hb
    exact reckoned_refl h hturn rfl rfl
  | refused f => cases hb
  | ended e he hkey b₁ b₂ hended hcounted =>
    obtain rfl := Except.ok.inj hb
    subst hkey hcounted
    have hlength := length_filter_key h.roster.keys_nodup he
    have hcounters : b₁.mux.counters = b.mux.counters := by
      rw [hended.same]
      rfl
    refine .of_kept h hturn (hended.tracked.congr rfl rfl (Log.issued_push (by simp)))
      (List.filter_subset_self L) ?_ ?_ ?_ ?_ ?_ ?_
    · intro htallied
      refine htallied.of_quiet ?_ ?_ ?_ ?_ hended.frame.bridge
        (congrArg _ hended.frame.scheduler)
      all_goals simp only [note, count, hcounters]
    all_goals simp only [note, count, hcounters]
    · simp only [matched, Option.toList_none, List.countP_nil]
      omega
    · rw [hended.pending]
      rfl

/-- A turn that shuts the context down. -/
theorem reckoned_shutdown (hI : Tracking I) (h : b.Tracked I L) (ht : t = .op .shutdown)
    (hturn : b.turn t = .ok b') :
    Reckoned b (b.made t) (b.matched t).toList (b.dropped t).card (errors [t] b) b' := by
  subst ht
  have hb := hturn
  rw [turn, perform] at hb
  rcases shutdown_spec hI h with
    ⟨f, -, heq⟩ | ⟨b₁, heq, htracked, hframe, hpending, -, hcounters, -⟩
  · rw [heq] at hb
    cases hb
  · rw [heq] at hb
    obtain rfl := Except.ok.inj hb
    refine .of_kept h hturn htracked (List.nil_subset L) ?_ (by rw [hcounters])
      (by rw [hcounters]) (by rw [hcounters]) ?_ ?_
    · intro htallied
      refine htallied.of_quiet ?_ ?_ ?_ ?_ hframe.bridge (congrArg _ hframe.scheduler)
      all_goals rw [hcounters]
    · rw [hcounters]
      simp only [matched, List.length_nil, Option.toList_none, List.countP_nil]
      omega
    · rw [hpending]
      simp [dropped, PendingWaits.length_waits]

end Reckoning

/-- **One turn** changes the counters by what happens in it. -/
theorem reckoned_turn {b b' : RecordedBench N T σ η} {L : List (Holding σ η)}
    (h : b.Tracked Filed L) {t : Turn N T σ} (hturn : b.turn t = .ok b') :
    Reckoned b (b.made t) (b.matched t).toList (b.dropped t).card (errors [t] b) b' := by
  cases t with
  | others native scheduler =>
    obtain rfl := Except.ok.inj hturn
    refine .of_kept h hturn (h.beside steady_filed native scheduler) (List.Subset.refl L) ?_ rfl rfl
      rfl rfl rfl
    exact fun htallied => htallied.of_quiet rfl rfl rfl rfl rfl rfl
  | op o =>
    cases o with
    | addWait signal edge task => exact reckoned_addWait h rfl hturn
    | flush order => exact reckoned_flush tracking_filed h rfl hturn
    | waitNow signal edge task =>
      refine reckoned_registerSingle tracking_filed h signal edge task .oneShot hturn ?_ ?_ rfl rfl
      · rw [← hturn, turn, perform, final_andThen_done]
        rfl
      · intro n b₁ heq
        rw [errors, perform, waitNow, heq]
        exact List.mem_singleton_self _
    | watch signal edge task =>
      refine reckoned_registerSingle tracking_filed h signal edge task .persistent hturn ?_ ?_ rfl rfl
      · rw [← hturn, turn, perform, final_andThen_done]
        rfl
      · intro n b₁ heq
        rw [errors, perform, watch, heq]
        exact List.mem_singleton_self _
    | deliver key value => exact reckoned_deliver tracking_filed h rfl hturn
    | cancel key => exact reckoned_cancel tracking_filed h rfl hturn
    | shutdown => exact reckoned_shutdown tracking_filed h rfl hturn

/-! ### Runs -/

theorem errors_cons {t : Turn N T σ} {rest : List (Turn N T σ)} {b b' : RecordedBench N T σ η}
    (hturn : b.turn t = .ok b') : errors (t :: rest) b = errors [t] b ++ errors rest b' := by
  cases t with
  | others native scheduler =>
    obtain rfl := Except.ok.inj hturn
    rfl
  | op o =>
    rw [turn] at hturn
    rw [errors, errors]
    cases hperform : b.perform o with
    | fault f =>
      rw [hperform] at hturn
      cases hturn
    | failed e b₁ =>
      rw [hperform] at hturn
      obtain rfl := Except.ok.inj hturn
      rfl
    | done a b₁ =>
      rw [hperform] at hturn
      obtain rfl := Except.ok.inj hturn
      rfl

/-- What a run does to the counters is what its turns do to them, one after the other. -/
theorem reckoned_after (turns : List (Turn N T σ)) :
    ∀ (b c : RecordedBench N T σ η) (L : List (Holding σ η)), b.Tracked Filed L →
      after turns b = .ok c →
      Reckoned b (allMade turns b) (allMatched turns b) (total dropped turns b).card
        (errors turns b) c := by
  induction turns with
  | nil =>
    rintro b c L - ⟨⟩
    exact .refl b
  | cons t rest ih =>
    intro b c L h hrun
    obtain ⟨b', hturn, hrest⟩ := after_cons.mp hrun
    obtain ⟨L', h'⟩ := turn_tracked tracking_filed steady_filed h hturn
    have hreckoned := (reckoned_turn h hturn).trans (ih b' c L' h' hrest)
    rw [allMade, allMatched, total, errors_cons hturn, hturn, Multiset.card_add]
    exact hreckoned

/-- What the counters of a context tell after a run from `b` to `c`. -/
structure Accounts (b : RecordedBench N T σ η) (turns : List (Turn N T σ))
    (c : RecordedBench N T σ η) : Prop where
  notifications : c.mux.stats.notifications =
    c.mux.stats.fired + c.mux.stats.ignored + c.mux.stats.stale
  dispatchCalls : c.mux.stats.dispatchCalls = c.mux.stats.fired
  /-- The scheduler has been called once for each registration that has fired. -/
  fired : c.mux.stats.fired = c.resumed.length
  dispatchedTasks : c.mux.stats.dispatchedTasks = (c.scheduler.calls.map (·.taken)).sum
  made : c.mux.stats.registrations = (allMade turns b).length
  registrations : c.mux.stats.registrations = c.mux.activeRegistrations + c.mux.stats.cancelled +
    (allMatched turns b).countP (·.mode = .oneShot)
  batchedRegistrations : c.mux.stats.batchedRegistrations =
    (allMade turns b).countP (1 < ·.tasks.length)
  /-- Unless the pool has been found empty. -/
  waitsAdded : (∀ n, .poolExhausted n ∉ errors turns b) → c.mux.stats.waitsAdded =
    ((allMade turns b).map (·.tasks.length)).sum + c.mux.pending.size +
      (total dropped turns b).card

/-- **The counters account for everything** that happens in a run of a new context. -/
theorem statistics {b c : RecordedBench N T σ η} (hfresh : Fresh b) {turns : List (Turn N T σ)}
    (hrun : after turns b = .ok c) : Accounts b turns c := by
  have h : b.Tracked Filed [] := hfresh.tracked fun _ _ he => absurd he (by simp)
  have hreckoned := reckoned_after turns b c [] h hrun
  have hnone : b.mux.activeRegistrations = 0 := h.roster.live_eq
  -- nothing has been counted before the run
  obtain ⟨hcounters, hpending, htallied⟩ :
      b.mux.counters = {} ∧ b.mux.pending = .empty ∧ Tallied b := by
    obtain ⟨config, picks, mux, native, scheduler, hmux, rfl⟩ := hfresh
    obtain ⟨policy, -, rfl⟩ := Mux.ofConfig_eq hmux
    exact ⟨rfl, rfl, rfl, rfl, rfl, rfl⟩
  obtain ⟨hafter, hregistrations, hbatched, hlive, hwaits⟩ := hreckoned
  have htally := hafter htallied
  simp only [hcounters, Nat.zero_add] at hregistrations hbatched
  simp only [hcounters, hnone, Nat.zero_add] at hlive
  refine ⟨htally.notifications, htally.dispatchCalls, htally.fired, htally.dispatchedTasks,
    hregistrations, hregistrations.trans hlive, hbatched, fun hroom => ?_⟩
  have hbalance := hwaits hroom
  simp only [hcounters, hpending, PendingWaits.size_empty, Nat.zero_add, Nat.add_zero] at hbalance
  exact hbalance

/-- Four reports, of which two fire, to registrations that have been made in each of the ways. -/
def fourReports : List (Turn Switchboard ScriptedScheduler Pin) :=
  [.op (.addWait ⟨0⟩ .rising ⟨1⟩), .op (.addWait ⟨0⟩ .rising ⟨2⟩), .op (.flush (.recorded Pin)),
    .op (.watch ⟨1⟩ .either ⟨3⟩), .op (.deliver ⟨0, 0⟩ .zero), .op (.deliver ⟨0, 0⟩ .one),
    .op (.deliver ⟨0, 0⟩ .one), .op (.deliver ⟨1, 0⟩ .x), .op (.waitNow ⟨1⟩ .falling ⟨4⟩),
    .op (.cancel ⟨0, 1⟩), .op (.addWait ⟨2⟩ .either ⟨5⟩), .op .shutdown]

theorem statistics_fourReports :
    ∃ b c : RecordedBench Switchboard ScriptedScheduler Pin Nat, Fresh b ∧
      after fourReports b = .ok c ∧ errors fourReports b = [] ∧
      c.mux.stats.registrations = 3 ∧ c.mux.stats.waitsAdded = 5 ∧
      Accounts b fourReports c := by
  obtain ⟨b, c, hfresh, hrun, herrors, hregistrations, hwaits⟩ :
      ∃ b c : RecordedBench Switchboard ScriptedScheduler Pin Nat, Fresh b ∧
        after fourReports b = .ok c ∧ errors fourReports b = [] ∧
        c.mux.stats.registrations = 3 ∧ c.mux.stats.waitsAdded = 5 :=
    ⟨_, _, ⟨{ pool := { capacity := 2 } }, [], _, {}, .failingAt [] ⟨"", ""⟩, rfl, rfl⟩, rfl, rfl,
      rfl, rfl⟩
  exact ⟨b, c, hfresh, hrun, herrors, hregistrations, hwaits, statistics hfresh hrun⟩

end Bench

end EdgeWait
