/-
What a step of a shared simulator hands over to the scheduler.

A step reports every change to all callbacks of the signal, whichever context they belong to, and
every report goes to the context that the step is driven with.

* `traced_resumed` — the lists that are handed over are those of the calls that match a registration
  of this context;
* `traced_changed` — each call comes of a change of the signal of its callback;
* `traced_own` — a call of the context's own callback matches a registration on that signal;
* `wakeups` — all of it, for steps and runs from every state that contexts on a shared simulator
  can reach.

Design notes: the key of a callback of another context can happen to be one of this context, and
then the call matches a registration that may be on any signal; `wakeups_foreignKey` is such a
case.  That is why a list is only said to belong to the changed signal where the callback is the
context's own.
-/
import EdgeWait.Proofs.Coexistence

namespace EdgeWait

open Sim

/-! ### What calls hand over -/

namespace Call

variable {T : Type}

/-- The registration of the driving context that a call matches, if the callback is live. -/
def woken (call : Call T) : Option (Registration SignalId) :=
  if call.isLive then call.bench.woken call.callback.key call.value else none

theorem woken_eq_some {call : Call T} {r : Registration SignalId}
    (h : call.woken = some r) :
    call.isLive = true ∧ call.bench.mux.registration? call.callback.key = some r ∧
      r.accepts (call.bench.mux.observe call.value) = true := by
  rw [woken] at h
  split at h
  case isFalse => cases h
  case isTrue hlive =>
    rw [Bench.woken] at h
    split at h
    · cases h
    · exact ⟨hlive, Option.filter_eq_some_iff.mp h⟩

/-- A call comes of a change of the signal of its callback. -/
structure OnChange [Scheduler T] (call : Call T) : Prop where
  /-- It is one of the calls of a change from another value to the one that is reported. -/
  change : ∃ (b : SimBench T) (before : Signal),
    b.native.signal? call.callback.signal = some before ∧ before.value ≠ call.value ∧
      call ∈ b.changeCalls call.callback.signal call.value
  /-- The signal has this value when the callback's turn comes. -/
  current : (call.bench.native.signal? call.callback.signal).map (·.value) = some call.value

/-- If the callback is one of the driving context, the call matches a registration on its signal. -/
def Attentive (call : Call T) : Prop :=
  call.handle ∈ call.bench.mux.subscriptions.filed →
    ∀ r, call.woken = some r → r.signal = call.callback.signal

end Call

namespace Bench

variable {T : Type} [Scheduler T]

/-- **Steps and runs** hand over the tasks of the registrations that their calls match. -/
theorem traced_resumed :
    TracedByCalls (T := SchedulerRecord T) Fault.Any (fun _ => True) (fun _ => True)
      fun b calls b' =>
        b'.resumed = b.resumed ++ (calls.filterMap Call.woken).map (·.tasks) where
  weaken := id
  trans := by
    intro b b' b'' calls calls' h h'
    rw [h', h, List.filterMap_append, List.map_append, List.append_assoc]
  aside := by
    intro b b' _ haside
    exact ⟨trivial, (resumed_of_scheduler haside.scheduler).trans (List.append_nil _).symm⟩
  flush := by
    intro b _ order
    have hany : RespectedByStarts (N := Sim) fun _ _ => True :=
      ⟨fun _ => trivial, fun _ _ => trivial, fun _ _ _ _ => trivial⟩
    refine leads_of_upholds ((flush_respected hany b order).imp fun b' hquiet => ⟨trivial, ?_⟩)
    exact (resumed_of_scheduler hquiet.scheduler).trans (List.append_nil _).symm
  passed := by
    intro b handle _ hlive callback value
    have hnone : Call.woken ⟨b, handle, callback, value⟩ = none :=
      if_neg (by simpa [Call.isLive] using hlive)
    rw [List.filterMap_cons, hnone]
    exact (List.append_nil _).symm
  heard := by
    intro b handle _ hlive callback value
    refine leads_of_upholds ((deliver_resumed _ callback.key value).imp fun b' hdeliver =>
      ⟨trivial, ?_⟩)
    have hwoken : Call.woken ⟨b, handle, callback, value⟩ = b.woken callback.key value :=
      if_pos hlive
    -- one call hands over the tasks of one registration at most
    have hlist : [(⟨b, handle, callback, value⟩ : Call (SchedulerRecord T))].filterMap Call.woken =
        (b.woken callback.key value).toList := by
      rw [List.filterMap_cons, hwoken]
      cases b.woken callback.key value <;> rfl
    rw [hlist]
    exact hdeliver

end Bench

/-! ### Reports take callbacks away, and nothing else -/

namespace Sim

/-- From `s` to `s'` callbacks have at most been removed, and the signals are the same. -/
structure Dwindles (s s' : Sim) : Prop where
  signals : s'.signals = s.signals
  get?_before : ∀ handle c, s'.callbacks.get? handle = some c → s.callbacks.get? handle = some c

theorem respectedByEnds_dwindles : RespectedByEnds Dwindles where
  refl := fun s => ⟨rfl, fun _ _ h => h⟩
  trans := fun h h' => ⟨h'.signals.trans h.signals, fun handle c hc =>
    h.get?_before handle c (h'.get?_before handle c hc)⟩
  unsubscribe := by
    intro s s' handle h
    obtain ⟨c, hget, rfl⟩ := get?_of_unsubscribe h
    refine ⟨rfl, fun handle' c' hc' => ?_⟩
    rw [SlotMap.get?_erase hget] at hc'
    split at hc'
    · cases hc'
    · exact hc'

end Sim

namespace Bench

variable {T : Type} [Scheduler T]

/-- The calls of a report are those of callbacks that it has been given. -/
theorem mem_reportCalls (value : Logic) (callbacks : List (CallbackHandle × Callback)) :
    ∀ (b : SimBench T) (call : Call T), call ∈ reportCalls value callbacks b →
      (call.handle, call.callback) ∈ callbacks ∧ call.value = value ∧
        Dwindles b.native call.bench.native := by
  induction callbacks with
  | nil =>
    intro b call hcall
    cases hcall
  | cons called rest ih =>
    obtain ⟨handle, callback⟩ := called
    intro b call hcall
    rw [reportCalls] at hcall
    rcases List.mem_cons.mp hcall with rfl | hcall
    · exact ⟨List.mem_cons_self, rfl, respectedByEnds_dwindles.refl _⟩
    -- the call is one of the rest, from where the first call has led to
    have hrest : ∀ b₁ : SimBench T, Dwindles b.native b₁.native →
        call ∈ reportCalls value rest b₁ →
        (call.handle, call.callback) ∈ (handle, callback) :: rest ∧ call.value = value ∧
          Dwindles b.native call.bench.native := by
      intro b₁ hfirst hcall
      obtain ⟨hmem, hvalue, hdwindles⟩ := ih b₁ call hcall
      exact ⟨List.mem_cons_of_mem _ hmem, hvalue, respectedByEnds_dwindles.trans hfirst hdwindles⟩
    split at hcall
    · have hdeliver := deliver_respected respectedByEnds_dwindles
        (b.onSim fun s => { s with delivered := s.delivered + 1 }) callback.key value
      generalize (b.onSim fun s => { s with delivered := s.delivered + 1 }).deliver callback.key
        value = o at hdeliver hcall
      cases o with
      | fault f => cases hcall
      | failed e b₁ => cases hcall
      | done _ b₁ => exact hrest b₁ ⟨hdeliver.signals, hdeliver.get?_before⟩ hcall
    · exact hrest b (respectedByEnds_dwindles.refl _) hcall

/-- **The calls of a change** are those of the callbacks of the signal, which has the new value. -/
theorem mem_changeCalls {b : SimBench T} {signal : SignalId} {value : Logic} {call : Call T}
    (hcall : call ∈ b.changeCalls signal value) :
    call.OnChange ∧ ∀ H, Covers H b.native → call.isLive = true →
      call.bench.native.callbacks.get? call.handle = some call.callback := by
  have hchange := hcall
  rw [changeCalls] at hcall
  cases hbefore : b.native.signal? signal with
  | none =>
    rw [hbefore] at hcall
    cases hcall
  | some before =>
    simp only [hbefore] at hcall
    by_cases hvalue : before.value = value
    · rw [if_pos hvalue] at hcall
      cases hcall
    rw [if_neg hvalue] at hcall
    set b₁ := (b.note (.changed b.native.now before.name before.value value)).onSim fun s =>
      s.withValue signal value with hb₁
    obtain ⟨hmem, rfl, hdwindles⟩ := mem_reportCalls value _ b₁ call hcall
    have hsame := untouched_withValue b.native signal call.value
    refine ⟨?_, fun H hcovers hlive => ?_⟩
    · obtain rfl : call.callback.signal = signal := by
        have hfilter := (foldr_insertByOrder _).1.mem_iff.mp hmem
        exact of_decide_eq_true (List.mem_filter.mp hfilter).2
      have hset : b₁.native.signal? call.callback.signal =
          some { before with value := call.value } := by
        show (b.native.withValue _ _).signal? _ = _
        rw [signal?_withValue, hbefore, Option.map_some, if_pos rfl]
      refine ⟨⟨b, before, hbefore, hvalue, hchange⟩, ?_⟩
      rw [signal?, hdwindles.signals, ← signal?, hset]
      rfl
    · have hset : Covers H b₁.native := hcovers.congr hsame.callbacks hsame.nextOrder
      have hget := (hset.mem_subscribers_iff.mp hmem).1
      -- a live callback under this handle has been there when the change began
      obtain ⟨c, hc⟩ := Option.isSome_iff_exists.mp hlive
      rw [hc, ← hdwindles.get?_before call.handle c hc, hget]

/-- **Calls** come of changes of the signals of their callbacks. -/
theorem traced_changed : TracedByChanges (T := T) Fault.Any (fun _ => True) (fun _ => True)
    (fun _ calls _ => ∀ call ∈ calls, call.OnChange) where
  weaken := id
  trans := fun h h' call hcall => (List.mem_append.mp hcall).elim (h call) (h' call)
  aside := fun _ _ => ⟨trivial, by simp⟩
  flush := fun _ _ => leads_of_upholds (Outcome.upholds_of_final
    (fun _ _ => ⟨trivial, by simp⟩) fun _ _ => trivial)
  change := fun _ _ _ => leads_of_upholds (Outcome.upholds_of_final
    (fun _ _ => ⟨trivial, fun _ hcall => (mem_changeCalls hcall).1⟩) fun _ _ => trivial)

omit [Scheduler T] in
/-- What the callbacks of a context among others match is on the signal. -/
theorem Guest.attentive {F : List SimHolding} {capacity : Nat} {call : Call T}
    (h : Guest F capacity call.bench)
    (hget : call.isLive = true →
      call.bench.native.callbacks.get? call.handle = some call.callback) : call.Attentive := by
  intro hfiled r hwoken
  obtain ⟨hlive, hregistration, -⟩ := Call.woken_eq_some hwoken
  obtain ⟨L, hroster, hshares⟩ := h.shares
  have hhandles := hshares.covers.handles_nodup
  rw [List.map_append, List.nodup_append'] at hhandles
  obtain ⟨e, he, hhandle⟩ :=
    List.mem_map.mp ((hroster.filed_perm hhandles.2.1).mem_iff.mp hfiled)
  have hown := hshares.covers.get?_of_mem e (List.mem_append_right F he)
  rw [hhandle, hget hlive] at hown
  have hcallback : call.callback = callbackOf e := Option.some.inj hown
  have hholding : call.bench.mux.registration? e.key = some e.registration :=
    hroster.get?_of_mem he
  rw [hcallback] at hregistration ⊢
  exact congrArg Registration.signal (Option.some.inj (hregistration.symm.trans hholding))

/-- **Calls of the context's own callbacks** match registrations on their signals. -/
theorem traced_own {F : List SimHolding} {capacity : Nat} :
    TracedByChanges (T := T) Fault.Never (Guest F capacity) (Guest F capacity)
      (fun _ calls _ => ∀ call ∈ calls, call.Attentive) where
  weaken := id
  trans := fun h h' call hcall => (List.mem_append.mp hcall).elim (h call) (h' call)
  aside := fun h haside => ⟨h.aside haside, by simp⟩
  flush := fun h order => leads_of_upholds ((h.flush order).imp fun _ hb => ⟨hb, by simp⟩)
  change := by
    intro b signal h hhas value
    obtain ⟨L, -, hshares⟩ := h.shares
    have hguests := Outcome.Settles.upholds (traced_guest.applyChange h hhas value) fun _ => id
    refine leads_of_upholds (hguests.imp fun b' hb => ⟨hb.1, fun call hcall => ?_⟩)
    exact (hb.2 call hcall).attentive ((mem_changeCalls hcall).2 _ hshares.covers)

end Bench

/-! ### Contexts that share a simulator -/

namespace SharedBench

/-- **No wake-up without a cause**: what a step or a run hands over while it is driven with a
context are the tasks of registrations of this context.  Each is the one under the key of a callback
of the signal that is changing, its edge accepts the new value, and it is on this signal if the
callback is the context's own. -/
theorem wakeups {T : Type} [Scheduler T] {s₀ s : SharedSim (SchedulerRecord T)} (hnew : New s₀)
    {turns : List (SharedTurn (SchedulerRecord T))} (hrun : SharedBench.after turns s₀ = .ok s)
    {i : Nat} {mux : Mux SignalId CallbackHandle} (hmux : s.contexts[i]? = some mux)
    {op : HostOp} (hop : op.drives = true) {b' : SimBench (SchedulerRecord T)}
    (hhost : (s.focus mux).host op = .ok b') :
    b'.resumed = (s.focus mux).resumed ++
        (((s.focus mux).calls op).filterMap Call.woken).map (·.tasks) ∧
      ∀ call ∈ (s.focus mux).calls op, call.OnChange ∧
        (∀ r, call.woken = some r →
          call.isLive = true ∧ call.bench.mux.registration? call.callback.key = some r ∧
            r.accepts (call.bench.mux.observe call.value) = true) ∧
        (s₀.capacity < 2 ^ 32 → call.Attentive) := by
  refine ⟨(Bench.traced_resumed.byChanges.traced.drives trivial hop hhost).2, fun call hcall => ⟨?_, ?_, ?_⟩⟩
  · exact (Bench.traced_changed.traced.drives trivial hop hhost).2 call hcall
  · exact fun r hwoken => Call.woken_eq_some hwoken
  · intro hcapacity
    obtain ⟨⟨parts, hparted⟩, hsame⟩ := Parted.after hnew hcapacity hrun
    obtain ⟨L, hp⟩ := hparted.getElem? hmux
    have hguest := hparted.guest (hsame ▸ hcapacity) hp
    exact (Bench.traced_own.traced.drives hguest hop hhost).2 call hcall

/-- Two contexts with a scheduler whose calls are recorded. -/
def twoRecorded : SharedSim (SchedulerRecord ScriptedScheduler) :=
  twoContexts ⟨.failingAt [] ⟨"", ""⟩, []⟩

/-- The second context is given both keys: by its own callback it wakes task 4, which waits for the
signal that has changed. -/
theorem wakeups_crossedKeys :
    New twoRecorded ∧ twoRecorded.capacity < 2 ^ 32 ∧
      ∃ s mux b', SharedBench.after crossedKeys twoRecorded = .ok s ∧
        s.contexts[1]? = some mux ∧ HostOp.drives (.step (.recorded SignalId)) = true ∧
        (s.focus mux).host (.step (.recorded SignalId)) = .ok b' ∧
        ∃ call ∈ (s.focus mux).calls (.step (.recorded SignalId)), ∃ r,
          call.woken = some r ∧ call.OnChange ∧ r.tasks = [⟨4⟩] ∧
            r.signal = call.callback.signal := by
  have hnew : New twoRecorded := new_twoContexts _
  have hcapacity : twoRecorded.capacity < 2 ^ 32 := by decide
  obtain ⟨s, mux, b', hrun, hmux, hhost, call, hcall, hown, r, hwoken, htasks⟩ :
      ∃ s mux b', SharedBench.after crossedKeys twoRecorded = .ok s ∧
        s.contexts[1]? = some mux ∧ (s.focus mux).host (.step (.recorded SignalId)) = .ok b' ∧
        ∃ call ∈ (s.focus mux).calls (.step (.recorded SignalId)),
          call.handle ∈ call.bench.mux.subscriptions.filed ∧
          ∃ r, call.woken = some r ∧ r.tasks = [⟨4⟩] :=
    ⟨_, _, _, rfl, rfl, rfl, _, List.mem_cons_of_mem _ List.mem_cons_self,
      List.mem_of_elem_eq_true rfl, _, rfl, rfl⟩
  obtain ⟨hchange, -, hattentive⟩ := (wakeups hnew hrun hmux rfl hhost).2 call hcall
  exact ⟨hnew, hcapacity, s, mux, b', hrun, hmux, rfl, hhost, call, hcall, r, hwoken, hchange,
    htasks, hattentive hcapacity hown r hwoken⟩

/-- **The key of another context** can be one of the context that a step is driven with.  Then the
step wakes a task that waits for another signal: only the first signal changes, and task 2 waits for
the second. -/
theorem wakeups_foreignKey :
    New twoRecorded ∧ twoRecorded.capacity < 2 ^ 32 ∧
      ∃ s mux b', SharedBench.after crossedKeys twoRecorded = .ok s ∧
        s.contexts[1]? = some mux ∧
        mux.subscriptions.arena.toList.map (fun e => (e.2.signal, e.2.tasks)) =
          [(⟨1⟩, [⟨2⟩]), (⟨0⟩, [⟨4⟩])] ∧
        (s.focus mux).host (.step (.recorded SignalId)) = .ok b' ∧
        (s.focus mux).resumed = [] ∧ b'.resumed = [[⟨2⟩], [⟨4⟩]] ∧
        ∃ call ∈ (s.focus mux).calls (.step (.recorded SignalId)), ∃ r,
          call.woken = some r ∧ call.OnChange ∧ r.tasks = [⟨2⟩] ∧
            call.callback.signal = ⟨0⟩ ∧ r.signal = ⟨1⟩ := by
  obtain ⟨s, mux, b', hrun, hmux, harena, hhost, hbefore, hafter, call, hcall, r, hcase⟩ :
      ∃ s mux b', SharedBench.after crossedKeys twoRecorded = .ok s ∧
        s.contexts[1]? = some mux ∧
        mux.subscriptions.arena.toList.map (fun e => (e.2.signal, e.2.tasks)) =
          [(⟨1⟩, [⟨2⟩]), (⟨0⟩, [⟨4⟩])] ∧
        (s.focus mux).host (.step (.recorded SignalId)) = .ok b' ∧
        (s.focus mux).resumed = [] ∧ b'.resumed = [[⟨2⟩], [⟨4⟩]] ∧
        ∃ call ∈ (s.focus mux).calls (.step (.recorded SignalId)), ∃ r,
          call.woken = some r ∧ r.tasks = [⟨2⟩] ∧ call.callback.signal = ⟨0⟩ ∧ r.signal = ⟨1⟩ :=
    ⟨_, _, _, rfl, rfl, rfl, rfl, rfl, rfl, _, List.mem_cons_self, _, rfl, rfl, rfl, rfl⟩
  have hchange := (Bench.traced_changed.traced.drives trivial rfl hhost).2 call hcall
  exact ⟨new_twoContexts _, by decide, s, mux, b', hrun, hmux, harena, hhost, hbefore, hafter, call,
    hcall, r, hcase.1, hchange, hcase.2⟩

end SharedBench

end EdgeWait
