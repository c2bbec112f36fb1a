/-
Where a step stops that fails, and what it leaves.

A step fails in its flush, and then nothing has happened to the simulator, or it fails in a report,
and then it stops at once: in the midst of the callbacks of a change, in the midst of the events of
one time.

* `deliver_breaks` — a report to a holding fails by the scheduler alone, after the registration has
  been ended if it was to be;
* `reportTo_cut`, `applyChange_cut` — the callbacks before the failing one have been called, and
  those after it stay as they are;
* `applyChange_stops`, `applyEvents_stops`, `advance_stops`, `step_fails` — so it is with the events
  of the time;
* `host_poisoned`, `hostAll_poisoned` — a context that is poisoned stays so, and drives nothing;
* `step_halts` — all of it, for every state that a context and its simulator can reach.

Design notes: the state that the step leaves is the one in which the scheduler has failed, for
nothing is done after that.  So it is told by the call of the callback that has led to it, and by
the moment of the event that has led to this call.
-/
import EdgeWait.Proofs.FailFast
import EdgeWait.Proofs.Replay

namespace EdgeWait

open Sim

namespace Bench

/-! ### Poisoned contexts -/

section Poisoned

variable {N T σ η : Type} [NativeLayer N σ η]

theorem sameStanding_tearDownAll (keys : List RegistrationKey) :
    ∀ {b b' : Bench N T σ η}, tearDownAll keys b = .ok b' → SameStanding b b' := by
  induction keys with
  | nil =>
    intro b b' h
    obtain rfl := Except.ok.inj h
    exact ⟨rfl, rfl⟩
  | cons key rest ih =>
    intro b b' h
    rw [tearDownAll] at h
    cases hone : b.tearDown key with
    | error f =>
      rw [hone] at h
      cases h
    | ok answer =>
      rw [hone] at h
      have hrest := ih h
      have hsame := tearDown_same hone
      rw [hsame] at hrest
      exact ⟨hrest.failed, hrest.bridge⟩

theorem sameStanding_cancel {b b' : Bench N T σ η} {key : RegistrationKey} {found : Bool}
    (h : b.cancel key = .ok (found, b')) : SameStanding b b' := by
  rw [cancel] at h
  cases hone : b.tearDown key with
  | error f =>
    rw [hone] at h
    cases h
  | ok answer =>
    obtain ⟨r, b₁⟩ := answer
    have hsame := tearDown_same hone
    rw [hone] at h
    cases r with
    | none =>
      obtain ⟨-, rfl⟩ := Prod.mk.inj (Except.ok.inj h)
      rw [hsame]
      exact ⟨rfl, rfl⟩
    | some r =>
      obtain ⟨-, rfl⟩ := Prod.mk.inj (Except.ok.inj h)
      rw [hsame]
      exact ⟨rfl, rfl⟩

theorem sameStanding_shutdown {b b' : Bench N T σ η} {count : Nat}
    (h : b.shutdown = .ok (count, b')) : SameStanding b b' := by
  rw [shutdown] at h
  dsimp only at h
  cases hall : tearDownAll b.mux.subscriptions.arena.keys
      { b with mux := { b.mux with pending := b.mux.pending.clear } } with
  | error f =>
    rw [hall] at h
    cases h
  | ok b₁ =>
    rw [hall] at h
    obtain ⟨-, rfl⟩ := Prod.mk.inj (Except.ok.inj h)
    have hsame := sameStanding_tearDownAll _ hall
    exact ⟨hsame.failed, hsame.bridge⟩

variable [DecidableEq σ] [LogText σ] [LogText η]

/-- A flush that fails leaves a poisoned context. -/
theorem isPoisoned_of_flush {b b' : Bench N T σ η} {order : VisitOrder σ} {e : MuxError}
    (h : b.flush order = .failed e b') : b'.mux.isPoisoned = true := by
  rw [flush] at h
  cases hlive : b.mux.isPoisoned with
  | true =>
    rw [hlive, if_pos rfl] at h
    obtain ⟨-, rfl⟩ := Outcome.failed.inj h
    exact hlive
  | false =>
    rw [hlive, if_neg Bool.false_ne_true] at h
    split at h
    · cases h
    · split at h
      · cases h
      · obtain ⟨-, rfl⟩ := Outcome.failed.inj h
        exact isPoisoned_of_failed rfl
      · cases h

/-- **A poisoned context stays poisoned**, whatever it is asked to do. -/
theorem perform_poisoned [Scheduler T] {b b' : Bench N T σ η} (h : b.mux.isPoisoned = true)
    {op : Op σ} (hb : (b.perform op).final = .ok b') : b'.mux.isPoisoned = true := by
  cases hop : op.isRefusable with
  | true =>
    rw [perform_of_poisoned h hop] at hb
    obtain rfl := Except.ok.inj hb
    exact h
  | false =>
    -- these are let through, and none of them mends a context
    cases op with
    | addWait signal edge task =>
      rw [perform] at hb
      rcases b.addWait_spec signal edge task with ⟨-, heq⟩ | heq
      · rw [heq] at hb
        cases hb
      · rw [heq] at hb
        obtain rfl := Except.ok.inj hb
        exact h
    | cancel key =>
      rw [perform] at hb
      cases hcancel : b.cancel key with
      | error f =>
        rw [hcancel] at hb
        cases hb
      | ok answer =>
        rw [hcancel] at hb
        obtain rfl := Except.ok.inj hb
        exact (sameStanding_cancel hcancel).isPoisoned_eq.trans h
    | shutdown =>
      rw [perform] at hb
      cases hshutdown : b.shutdown with
      | error f =>
        rw [hshutdown] at hb
        cases hb
      | ok answer =>
        rw [hshutdown] at hb
        obtain rfl := Except.ok.inj hb
        exact (sameStanding_shutdown hshutdown).isPoisoned_eq.trans h
    | flush | waitNow | watch | deliver => cases hop

end Poisoned

variable {T : Type} [Scheduler T]

/-- Who drives a simulator with this context is refused, and nothing happens. -/
structure Halted (b : SimBench T) : Prop where
  step : ∀ order, b.step order = .failed (.mux .poisoned) b
  run : ∀ orders, b.run orders = .failed (.mux .poisoned) b
  runUntil : ∀ orders limit, b.runUntil orders limit = .failed (.mux .poisoned) b

theorem halted_of_poisoned {b : SimBench T} (h : b.mux.isPoisoned = true) : Halted b := by
  have hstep : ∀ order, b.step order = .failed (.mux .poisoned) b := by
    intro order
    rw [Bench.step, flush_of_poisoned h]
  refine ⟨hstep, fun orders => ?_, fun orders limit => ?_⟩
  · have hsteps : ∀ n, runSteps n orders b = .failed (.mux .poisoned) b := by
      intro n
      cases n with
      | zero => rw [runSteps, hstep]; rfl
      | succ n => rw [runSteps, hstep]
    rw [Bench.run, hsteps]
    rfl
  · have hsteps : ∀ n, runStepsUntil limit n orders b = .failed (.mux .poisoned) b := by
      intro n
      have hflush : ((b.flush (orders 0)).mapError SimError.mux).andThen
          (fun _ b => Outcome.done () b) = .failed (.mux .poisoned) b := by
        rw [flush_of_poisoned h]
        rfl
      cases n with
      | zero => rw [runStepsUntil, hflush]
      | succ n =>
        rw [runStepsUntil]
        split
        · rw [hstep]
        · exact hflush
    rw [Bench.runUntil, hsteps]
    rfl

theorem host_poisoned {b b' : SimBench T} (h : b.mux.isPoisoned = true) {op : HostOp}
    (hb : b.host op = .ok b') : b'.mux.isPoisoned = true := by
  have hhalted := halted_of_poisoned h
  cases op with
  | context op => exact perform_poisoned h hb
  | addSignal name initial => rw [(host_aside rfl hb).mux, h]
  | schedule time signal value => rw [(host_aside rfl hb).mux, h]
  | scheduleClock signal half cycles => rw [(host_aside rfl hb).mux, h]
  | step order =>
    rw [host, hhalted.step] at hb
    rw [← Except.ok.inj hb, h]
  | run orders =>
    rw [host, hhalted.run] at hb
    rw [← Except.ok.inj hb, h]
  | runUntil orders limit =>
    rw [host, hhalted.runUntil] at hb
    rw [← Except.ok.inj hb, h]

/-- **A poisoned context drives nothing** any more, whatever its host does. -/
theorem hostAll_poisoned (ops : List HostOp) : ∀ {b b' : SimBench T},
    b.mux.isPoisoned = true → hostAll ops b = .ok b' → b'.mux.isPoisoned = true :=
  hostAll_induction (P := fun b : SimBench T => b.mux.isPoisoned = true)
    (fun _ _ _ h hop => host_poisoned h hop) ops _ _

/-! ### A report that fails -/

variable {d n : Nat} {b b' : SimBench T} {L : List SimHolding}

/-- The scheduler has failed for a holding whose report has come, and `b'` is what has been left. -/
structure Breaks (d : Nat) (b : SimBench T) (L : List SimHolding) (e : SimHolding) (value : Logic)
    (cause : ScriptError) (b' : SimBench T) : Prop where
  accepts : e.registration.accepts (b.mux.observe value) = true
  handOver : ∃ t, Scheduler.scheduleMany b.scheduler e.registration.tasks = (.error cause, t) ∧
    b'.scheduler = Scheduler.finalize t
  poisoned : b'.mux.isPoisoned = true
  /-- A one-shot registration has been ended before. -/
  tracked : b'.Tracked (Joined d)
    (if e.registration.mode = .oneShot then L.filter (·.key ≠ e.key) else L)
  delivered : b'.native.delivered = d

/-- **A report to a holding** fails by the scheduler alone. -/
theorem deliver_breaks (h : Ledger d n b L) (hlive : b.mux.isPoisoned = false) {e : SimHolding}
    (he : e ∈ L) {value : Logic} {error : MuxError}
    (hfails : b.deliver e.key value = .failed error b') :
    ∃ cause, error = .dispatchFailed cause ∧ Breaks d b L e value cause b' := by
  have hresult := deliver_spec (tracking_joined d) h.tracked hlive e.key value
  rw [hfails] at hresult
  generalize ho : (Outcome.failed error b' : Outcome MuxError (SimBench T) Delivery) = o at hresult
  cases hresult with
  | stale habsent => cases ho
  | ignored f hf hkey hdiffers => cases ho
  | refused f hrefuses => cases ho
  | fired f hf hkey haccepts b₁ hready o' hhand =>
    obtain rfl := h.tracked.roster.eq_of_key hf he hkey
    cases hhand with
    | done b₂ hsame hcall hbridge => cases ho
    | failed b₂ cause t hsame hcall hscheduler hbridge =>
      obtain ⟨rfl, rfl⟩ := Outcome.failed.inj ho
      have htracked := hready.tracked.congr hsame.subscriptions hsame.native hsame.issued
      refine ⟨cause, rfl, haccepts, ⟨t, ?_, hscheduler⟩, ?_, htracked, htracked.extra.delivered⟩
      · rw [← hready.frame.scheduler]
        exact hcall
      · rw [Mux.isPoisoned, hbridge, Bool.or_true]

/-- What is left of the other holdings: their callbacks and their registrations. -/
theorem Breaks.kept {e f : SimHolding} {value : Logic} {cause : ScriptError}
    (h : Breaks d b L e value cause b') (hf : f ∈ L) (hne : f.key ≠ e.key) :
    b'.native.callbacks.get? f.handle = some (callbackOf f) ∧
      b'.mux.registration? f.key = some f.registration := by
  have hmem : f ∈ if e.registration.mode = .oneShot then L.filter (·.key ≠ e.key) else L := by
    split
    · exact List.mem_filter.mpr ⟨hf, decide_eq_true hne⟩
    · exact hf
  exact ⟨h.tracked.extra.serves.get?_of_mem f hmem, h.tracked.roster.get?_of_mem hmem⟩

/-- The call at which a report has stopped: the registration `r` has matched, and the scheduler has
failed for its tasks. -/
structure BreaksAt (call : Call T) (r : Registration SignalId) (cause : ScriptError)
    (b' : SimBench T) : Prop where
  live : call.isLive = true
  found : call.bench.mux.registration? call.callback.key = some r
  accepts : r.accepts (call.bench.mux.observe call.value) = true
  handOver : ∃ t, Scheduler.scheduleMany call.bench.scheduler r.tasks = (.error cause, t) ∧
    b'.scheduler = Scheduler.finalize t
  /-- A one-shot registration is gone, and its callback with it. -/
  oneShot : r.mode = .oneShot → b'.mux.registration? call.callback.key = none ∧
    b'.native.callbacks.get? call.handle = none
  /-- A persistent one is as it was. -/
  persistent : r.mode = .persistent → b'.mux.registration? call.callback.key = some r ∧
    b'.native.callbacks.get? call.handle = some call.callback

theorem Breaks.breaksAt {e : SimHolding} {value : Logic} {cause : ScriptError}
    (hbefore : Ledger d n b L) (he : e ∈ L)
    (h : Breaks (d + 1) (b.onSim fun s => { s with delivered := s.delivered + 1 }) L e value cause
      b') : BreaksAt ⟨b, e.handle, callbackOf e, value⟩ e.registration cause b' := by
  have hcovers := hbefore.tracked.extra.serves.toCovers
  have htracked := h.tracked
  refine ⟨?_, hbefore.tracked.roster.get?_of_mem he, h.accepts, h.handOver, ?_, ?_⟩
  · show b.native.isLive e.handle = true
    rw [Sim.isLive, SlotMap.contains, hcovers.get?_of_mem e he]
    rfl
  · intro hmode
    rw [if_pos hmode] at htracked
    constructor
    · refine htracked.roster.get?_eq_none_iff.mpr fun f hf => ?_
      exact of_decide_eq_true (List.mem_filter.mp hf).2
    · -- what is left of the callbacks is that of other holdings
      refine Option.eq_none_iff_forall_ne_some.mpr fun c hc => ?_
      obtain ⟨f, hf, hhandle⟩ := htracked.extra.serves.mem_of_get? _ c hc
      obtain ⟨hmem, hne⟩ := List.mem_filter.mp hf
      rw [hcovers.eq_of_handle hmem he hhandle] at hne
      simp at hne
  · intro hmode
    rw [if_neg (by simp [hmode])] at htracked
    exact ⟨htracked.roster.get?_of_mem he, htracked.extra.serves.get?_of_mem e he⟩

/-! ### A change that fails -/

/-- The report of a value to the holdings `S` has been cut short at the holding `e`. -/
structure ReportCut (b : SimBench T) (value : Logic) (S heard : List SimHolding) (e : SimHolding)
    (unheard : List SimHolding) (calls : List (Call T)) (failing : Call T) (cause : ScriptError)
    (b' : SimBench T) : Prop where
  split : S = heard ++ e :: unheard
  called : reportCalls value (S.map fun e => (e.handle, callbackOf e)) b = calls ++ [failing]
  callees : (calls ++ [failing]).map (fun call => (call.handle, call.callback)) =
    (heard ++ [e]).map fun e => (e.handle, callbackOf e)
  breaks : BreaksAt failing e.registration cause b'
  poisoned : b'.mux.isPoisoned = true
  counted : b'.native.delivered = b.native.delivered + (calls ++ [failing]).length
  kept : ∀ f ∈ unheard, b'.native.callbacks.get? f.handle = some (callbackOf f) ∧
    b'.mux.registration? f.key = some f.registration

/-- Nobody has been called for the holdings after it. -/
theorem ReportCut.handle_ne {value : Logic} {S heard unheard : List SimHolding} {e : SimHolding}
    {calls : List (Call T)} {failing : Call T} {cause : ScriptError}
    (h : ReportCut b value S heard e unheard calls failing cause b')
    (hnodup : (S.map (·.handle)).Nodup) :
    ∀ g ∈ unheard, ∀ call ∈ calls ++ [failing], call.handle ≠ g.handle := by
  intro g hg call hcall hhandle
  have hcallee : (call.handle, call.callback) ∈
      (heard ++ [e]).map fun e => (e.handle, callbackOf e) := by
    rw [← h.callees]
    exact List.mem_map_of_mem hcall
  obtain ⟨k, hk, hkcall⟩ := List.mem_map.mp hcallee
  have hcalled : g.handle ∈ (heard ++ [e]).map (·.handle) :=
    List.mem_map.mpr ⟨k, hk, (congrArg Prod.fst hkcall).trans hhandle⟩
  have hsplit : S = (heard ++ [e]) ++ unheard := by simp [h.split]
  rw [hsplit, List.map_append] at hnodup
  exact (List.nodup_append'.mp hnodup).2.2 hcalled (List.mem_map_of_mem hg)

/-- **A report to holdings** that fails is cut short at one of them. -/
theorem reportTo_cut (value : Logic) (S : List SimHolding) :
    ∀ {d n : Nat} {b b' : SimBench T} {L : List SimHolding} {error : MuxError}, Ledger d n b L →
      b.mux.isPoisoned = false → (∀ e ∈ S, e ∈ L) → (S.map (·.key)).Nodup →
      reportTo value (S.map fun e => (e.handle, callbackOf e)) b = .failed error b' →
      ∃ heard e unheard calls failing cause, error = .dispatchFailed cause ∧
        ReportCut b value S heard e unheard calls failing cause b' := by
  induction S with
  | nil =>
    intro d n b b' L error _ _ _ _ hfails
    cases hfails
  | cons e S ih =>
    intro d n b b' L error h hlive hmem hkeys hfails
    have he : e ∈ L := hmem e List.mem_cons_self
    rw [List.map_cons, List.nodup_cons] at hkeys
    have hother : ∀ f ∈ S, f.key ≠ e.key := fun f hf hc => hkeys.1 (hc ▸ List.mem_map_of_mem hf)
    have hisLive : b.native.isLive e.handle = true := by
      rw [Sim.isLive, SlotMap.contains, h.tracked.extra.serves.get?_of_mem e he]
      rfl
    set b₁ := b.onSim fun s => { s with delivered := s.delivered + 1 } with hb₁
    have h₁ : Ledger (d + 1) n b₁ L :=
      h.onSim ⟨rfl, rfl, rfl, rfl⟩ (congrArg (· + 1) h.tracked.extra.delivered)
    have hheard := deliver_heard h₁ e.key value
    have hkey : (callbackOf e).key = e.key := rfl
    rw [List.map_cons] at hfails
    simp only [reportTo, if_pos hisLive, ← hb₁, hkey] at hfails
    cases hdeliver : b₁.deliver e.key value with
    | fault f =>
      rw [hdeliver] at hfails
      cases hfails
    | failed error₁ b₂ =>
      rw [hdeliver] at hfails
      obtain ⟨rfl, rfl⟩ := Outcome.failed.inj hfails
      obtain ⟨cause, rfl, hbreaks⟩ := deliver_breaks h₁ hlive he hdeliver
      have hcalls : reportCalls value ((e :: S).map fun e => (e.handle, callbackOf e)) b =
          [⟨b, e.handle, callbackOf e, value⟩] := by
        simp only [List.map_cons, reportCalls, if_pos hisLive, ← hb₁, hkey, hdeliver]
      refine ⟨[], e, S, [], ⟨b, e.handle, callbackOf e, value⟩, cause, rfl, rfl, hcalls, rfl,
        hbreaks.breaksAt h he, hbreaks.poisoned, ?_, fun f hf => ?_⟩
      · rw [hbreaks.delivered, h.tracked.extra.delivered]
        rfl
      · exact hbreaks.kept (hmem f (List.mem_cons_of_mem e hf)) (hother f hf)
    | done delivery b₂ =>
      rw [hdeliver] at hfails hheard
      obtain ⟨hheard, hlive₂⟩ := hheard
      obtain ⟨L', hledger, hkept⟩ := hheard.ledger
      -- the report has ended no holding but its own
      have hrest : ∀ f ∈ S, f ∈ L' := fun f hf =>
        hkept f (hmem f (List.mem_cons_of_mem e hf)) (hother f hf)
      have hone : b₂.native.delivered = b.native.delivered + 1 := by
        rw [hledger.tracked.extra.delivered, h.tracked.extra.delivered]
      obtain ⟨heard, g, unheard, calls, failing, cause, herror, hcut⟩ :=
        ih hledger hlive₂ hrest hkeys.2 hfails
      refine ⟨e :: heard, g, unheard, ⟨b, e.handle, callbackOf e, value⟩ :: calls, failing, cause,
        herror, ?_, ?_, ?_, hcut.breaks, hcut.poisoned, ?_, hcut.kept⟩
      · rw [hcut.split]
        rfl
      · simp only [List.map_cons, reportCalls, if_pos hisLive, ← hb₁, hkey, hdeliver, hcut.called]
        rfl
      · rw [List.cons_append, List.map_cons, hcut.callees]
        rfl
      · rw [hcut.counted, hone, List.cons_append, List.length_cons]
        omega

/-- The report of an event has been cut short: the callbacks up to the failing one have been called,
and those after it are subscribed as before. -/
structure CutShort (m : Moment T) (heard : List (Call T)) (failing : Call T)
    (unheard : List (CallbackHandle × Callback)) (cause : ScriptError) (b' : SimBench T) :
    Prop where
  changes : m.Changes
  called : m.calls = heard ++ [failing]
  subscribers : m.bench.native.subscribers m.event.signal =
    m.calls.map (fun call => (call.handle, call.callback)) ++ unheard
  breaks : ∃ r, BreaksAt failing r cause b'
  unheard : ∀ handle callback, (handle, callback) ∈ unheard →
    (∀ call ∈ m.calls, call.handle ≠ handle) ∧
      b'.native.callbacks.get? handle = some callback ∧
      b'.mux.isActive callback.key = true
  counted : b'.native.delivered = m.bench.native.delivered + m.calls.length

/-- **A change** whose report fails. -/
theorem applyChange_cut (h : Ledger d n b L) (hlive : b.mux.isPoisoned = false) {e : Event}
    {error : MuxError} (hfails : b.applyChange e.signal e.value = .failed error b') :
    ∃ heard failing unheard cause, error = .dispatchFailed cause ∧ b'.mux.isPoisoned = true ∧
      CutShort ⟨b, e⟩ heard failing unheard cause b' := by
  have hserves := h.tracked.extra.serves
  have hsubscribers := hserves.subscribers_eq h.tracked.extra.numbered e.signal
  set S := L.filter (·.registration.signal = e.signal) with hS
  have hmem : ∀ f ∈ S, f ∈ L := fun f hf => List.mem_of_mem_filter hf
  have hkeys : (S.map (·.key)).Nodup :=
    h.tracked.roster.keys_nodup.sublist (List.filter_sublist.map _)
  have hhandles : (S.map (·.handle)).Nodup :=
    hserves.handles_nodup.sublist (List.filter_sublist.map _)
  rw [applyChange_eq] at hfails
  cases hbefore : b.native.signal? e.signal with
  | none =>
    rw [hbefore] at hfails
    cases hfails
  | some before =>
    simp only [hbefore] at hfails
    by_cases hsame : before.value = e.value
    · rw [if_pos hsame] at hfails
      cases hfails
    · rw [if_neg hsame] at hfails
      set b₁ := (b.note (.changed b.native.now before.name before.value e.value)).onSim fun s =>
        s.withValue e.signal e.value with hb₁
      -- the value is set and noted before anybody is called
      have haside : Aside b b₁ :=
        (aside_note (by simp)).trans (aside_onSim (untouched_withValue _ e.signal e.value))
      have h₁ := h.aside haside
      have hsubscribers₁ := h₁.tracked.extra.serves.subscribers_eq h₁.tracked.extra.numbered e.signal
      rw [hsubscribers₁, ← hS] at hfails
      obtain ⟨heard, f, unheard, calls, failing, cause, herror, hcut⟩ :=
        reportTo_cut e.value S h₁ hlive hmem hkeys hfails
      have hchange : b.changeCalls e.signal e.value = calls ++ [failing] := by
        simp only [changeCalls, hbefore, if_neg hsame]
        rw [← hb₁, hsubscribers₁]
        exact hcut.called
      refine ⟨calls, failing, unheard.map fun g => (g.handle, callbackOf g), cause, herror,
        hcut.poisoned, ⟨before.value, ?_, hsame⟩, hchange, ?_, ⟨f.registration, hcut.breaks⟩,
        ?_, ?_⟩
      · show b.native.value? e.signal = some before.value
        rw [value?, hbefore]
        rfl
      · show b.native.subscribers e.signal = (b.changeCalls e.signal e.value).map _ ++ _
        rw [hsubscribers, hchange, hcut.callees, ← List.map_append, hcut.split]
        simp
      · intro handle callback hcallback
        obtain ⟨g, hg, heq⟩ := List.mem_map.mp hcallback
        obtain ⟨rfl, rfl⟩ := Prod.mk.inj heq
        obtain ⟨hget, hregistration⟩ := hcut.kept g hg
        refine ⟨fun call hcall => ?_, hget, ?_⟩
        · rw [Moment.calls, hchange] at hcall
          exact hcut.handle_ne hhandles g hg call hcall
        · have hfound : b'.mux.subscriptions.arena.get? g.key = some g.registration := hregistration
          show b'.mux.subscriptions.arena.contains g.key = true
          rw [SlotMap.contains, hfound]
          rfl
      · show b'.native.delivered = b.native.delivered + (b.changeCalls e.signal e.value).length
        rw [hcut.counted, hchange, haside.sim.delivered]

/-! ### Events and steps that fail -/

/-- From `b` to `b'` the events of the moments `front` have been applied, and then that of `last`,
the report of which has been cut short. -/
structure StopsIn (b : SimBench T) (front : List (Moment T)) (last : Moment T)
    (left : List Event) (heard : List (Call T)) (failing : Call T)
    (unheard : List (CallbackHandle × Callback)) (cause : ScriptError) (b' : SimBench T) : Prop
    extends CutShort last heard failing unheard cause b' where
  queue : b.native.queue = (front ++ [last]).map (·.event) ++ left
  /-- The events that have not been applied are still queued. -/
  left : b'.native.queue = left
  /-- Signals have the values that the events applied have given them, the last one with them. -/
  values : ∀ signal, b'.native.value? signal =
    replayed ((front ++ [last]).map (·.event)) signal (b.native.value? signal)
  reports : ∀ m ∈ front, m.Reports
  delivered : b'.native.delivered =
    b.native.delivered + ((front ++ [last]).flatMap (·.calls)).length

/-- What stops after a replay has stopped after the events of the replay as well. -/
theorem StopsIn.after {b₁ : SimBench T} {moments front : List (Moment T)} {last : Moment T}
    {left : List Event} {heard : List (Call T)} {failing : Call T}
    {unheard : List (CallbackHandle × Callback)} {cause : ScriptError}
    (h : StopsIn b₁ front last left heard failing unheard cause b') (hfirst : Replays b moments b₁) :
    StopsIn b (moments ++ front) last left heard failing unheard cause b' where
  toCutShort := h.toCutShort
  queue := by
    rw [hfirst.queue, h.queue]
    simp only [List.map_append, List.append_assoc]
  left := h.left
  values := by
    intro signal
    rw [h.values, hfirst.value]
    simp only [List.map_append, replayed_append]
  reports := by
    intro m hm
    rcases List.mem_append.mp hm with hm | hm
    · obtain ⟨pre, post, rfl⟩ := List.append_of_mem hm
      exact (hfirst.moment pre m post rfl).1
    · exact h.reports m hm
  delivered := by
    rw [h.delivered, hfirst.delivered]
    simp only [List.flatMap_append, List.length_append, Nat.add_assoc]

/-- **One event** that has come to the head of the queue, when its report fails. -/
theorem applyChange_stops (h : Ledger d n b L) (hlive : b.mux.isPoisoned = false) {e : Event}
    {left : List Event} (hqueue : b.native.queue = e :: left) {error : MuxError}
    (hfails : b.popped.applyChange e.signal e.value = .failed error b') :
    ∃ heard failing unheard cause, error = .dispatchFailed cause ∧ b'.mux.isPoisoned = true ∧
      StopsIn b [] ⟨b.popped, e⟩ left heard failing unheard cause b' ∧
      b'.native.now = b.native.now ∧ b'.native.steps = b.native.steps := by
  set b₁ := b.popped with hb₁
  have haside : Aside b b₁ := aside_onSim ⟨⟨rfl, rfl, rfl, rfl⟩, rfl⟩
  obtain ⟨heard, failing, unheard, cause, herror, hpoisoned, hcut⟩ :=
    applyChange_cut (h.aside haside) hlive hfails
  have hvalues := b₁.applyChange_value e
  have hevents := b₁.applyChange_sameCourse e.signal e.value
  rw [hfails] at hvalues hevents
  refine ⟨heard, failing, unheard, cause, herror, hpoisoned, ⟨hcut, hqueue, ?_, hvalues.1, ?_, ?_⟩,
    hevents.now, hvalues.2⟩
  · rw [hevents.queue]
    show b.native.queue.tail = left
    rw [hqueue]
    rfl
  · intro m hm
    cases hm
  · rw [hcut.counted, List.nil_append, List.flatMap_singleton]
    rfl

/-- **The events of one time**, when the report of one of them fails. -/
theorem applyEvents_stops (later events : List Event) :
    ∀ {b b' : SimBench T} {error : MuxError}, (∃ d n L, Ledger d n b L) →
      b.mux.isPoisoned = false → b.native.queue = events ++ later →
      (∀ e ∈ events, e.time = b.native.now) → applyEvents events b = .failed error b' →
      ∃ front last rest heard failing unheard cause, error = .dispatchFailed cause ∧
        b'.mux.isPoisoned = true ∧ momentsOf (eventStages events b) = front ++ [last] ∧
        events = (front ++ [last]).map (·.event) ++ rest ∧
        StopsIn b front last (rest ++ later) heard failing unheard cause b' ∧
        b'.native.now = b.native.now ∧ b'.native.steps = b.native.steps := by
  induction events with
  | nil =>
    intro b b' error _ _ _ _ hfails
    cases hfails
  | cons e events ih =>
    intro b b' error hled hlive hqueue htime hfails
    rw [applyEvents_cons] at hfails
    rw [eventStages, momentsOf_event_cons]
    obtain ⟨d, n, L, hledger⟩ := hled
    cases hone : b.popped.applyChange e.signal e.value with
    | fault f =>
      rw [hone] at hfails
      cases hfails
    -- the first event has stopped: none has been applied before it
    | failed error₁ b₁ =>
      rw [hone] at hfails
      obtain ⟨rfl, rfl⟩ := Outcome.failed.inj hfails
      obtain ⟨heard, failing, unheard, cause, herror, hpoisoned, hstops, hnow, hsteps⟩ :=
        applyChange_stops hledger hlive hqueue hone
      exact ⟨[], _, events, heard, failing, unheard, cause, herror, hpoisoned, rfl, rfl, hstops,
        hnow, hsteps⟩
    | done _ b₁ =>
      have hkept := traced_led.change (b := b.popped)
        ⟨⟨d, n, L, hledger.aside (aside_onSim ⟨⟨rfl, rfl, rfl, rfl⟩, rfl⟩)⟩, hlive⟩
        (has_of_applyChange_eq hone) e.value
      rw [hone] at hfails hkept
      obtain ⟨hfirst, hqueue₁, hnow₁, hsteps₁⟩ :=
        applyChange_replays hledger hlive hqueue (htime e List.mem_cons_self) hone
      have htime₁ : ∀ a ∈ events, a.time = b₁.native.now := by
        intro a ha
        rw [hnow₁]
        exact htime a (List.mem_cons_of_mem e ha)
      obtain ⟨front, last, rest, heard, failing, unheard, cause, herror, hpoisoned, hmoments,
        hsplit, hstops, hnow, hsteps⟩ := ih hkept.1.1 hkept.1.2 hqueue₁ htime₁ hfails
      refine ⟨_ :: front, last, rest, heard, failing, unheard, cause, herror, hpoisoned,
        congrArg _ hmoments, ?_, hstops.after hfirst, hnow.trans hnow₁, hsteps.trans hsteps₁⟩
      rw [hsplit]
      rfl

/-- Nothing has happened to the simulator that is not a matter of callbacks alone. -/
structure Unmoved (s s' : Sim) : Prop where
  now : s'.now = s.now
  signals : s'.signals = s.signals
  queue : s'.queue = s.queue
  nextSeq : s'.nextSeq = s.nextSeq
  steps : s'.steps = s.steps
  delivered : s'.delivered = s.delivered

omit [Scheduler T] in
theorem unmoved_of_flush {order : VisitOrder SignalId} {error : MuxError}
    (h : b.flush order = .failed error b') : Unmoved b.native b'.native := by
  have hevents := flush_respected respected_sameCourse.toRespectedByStarts b order
  have hsignals := flush_respected respected_sameSignals.toRespectedByStarts b order
  have hdelivered := flush_respected respected_delivered.toRespectedByStarts b order
  rw [h] at hevents hsignals hdelivered
  exact ⟨hevents.native.now, hsignals.native.signals, hevents.native.queue, hevents.native.nextSeq,
    hsignals.native.steps, hdelivered.native⟩

/-- A step from `b` has stopped in `b'` in the midst of the events of its time: those before the
moment `last` have been applied, and the report of that one has been cut short. -/
structure StopsAt (order : VisitOrder SignalId) (b : SimBench T) (front : List (Moment T))
    (last : Moment T) (rest later : List Event) (heard : List (Call T)) (failing : Call T)
    (unheard : List (CallbackHandle × Callback)) (cause : ScriptError) (b' : SimBench T) : Prop
    extends StopsIn b front last (rest ++ later) heard failing unheard cause b' where
  moments : b.moments (.step order) = front ++ [last]
  /-- The queue was in the order of time, and of scheduling at one time. -/
  ordered : b.native.queue.Pairwise (·.before · = true)
  due : ∀ e ∈ (front ++ [last]).map (·.event) ++ rest, e.time = b'.native.now
  notDue : ∀ e ∈ later, b'.native.now.fs < e.time.fs
  earliest : ∀ e ∈ b.native.queue, b'.native.now.fs ≤ e.time.fs
  nextSeq : b'.native.nextSeq = b.native.nextSeq
  steps : b'.native.steps = b.native.steps

/-- How a step fails. -/
inductive Halts (order : VisitOrder SignalId) (b : SimBench T) : SimError → SimBench T → Prop where
  /-- In its flush: then nothing has happened to the simulator. -/
  | flush {error : MuxError} {b' : SimBench T} : b.flush order = .failed error b' →
    Unmoved b.native b'.native → Halts order b (.mux error) b'
  /-- In a hand-over to the scheduler: then it has stopped there. -/
  | dispatch {front : List (Moment T)} {last : Moment T} {rest later : List Event}
    {heard : List (Call T)} {failing : Call T} {unheard : List (CallbackHandle × Callback)}
    {cause : ScriptError} {b' : SimBench T} :
    StopsAt order b front last rest later heard failing unheard cause b' →
    Halts order b (.mux (.dispatchFailed cause)) b'

/-- **A step** without its flush, when the report of one of its events fails. -/
theorem advance_stops (h : Ledger d n b L) (hlive : b.mux.isPoisoned = false)
    (hordered : b.native.queue.Pairwise (·.before · = true)) {error : SimError}
    (hfails : b.advance = .failed error b') :
    ∃ front last rest later heard failing unheard cause,
      error = .mux (.dispatchFailed cause) ∧ b'.mux.isPoisoned = true ∧
      momentsOf b.advanceStages = front ++ [last] ∧
      StopsIn b front last (rest ++ later) heard failing unheard cause b' ∧
      (∀ e ∈ (front ++ [last]).map (·.event) ++ rest, e.time = b'.native.now) ∧
      (∀ e ∈ later, b'.native.now.fs < e.time.fs) ∧ b'.native.steps = b.native.steps := by
  rw [advance] at hfails
  rw [advanceStages]
  cases hqueue : b.native.queue with
  | nil =>
    rw [nextTime?_nil hqueue] at hfails
    cases hfails
  | cons first others =>
    rw [nextTime?_cons hqueue] at hfails ⊢
    dsimp only at hfails ⊢
    rw [← hqueue]
    set b₁ := b.onSim fun s => { s with now := first.time } with hb₁
    have haside : Aside b b₁ := aside_onSim ⟨⟨rfl, rfl, rfl, rfl⟩, rfl⟩
    have hmove : Replays b [] b₁ := .nil rfl rfl rfl
    have hbefore : b₁.native.queue = b.native.queue.takeWhile (·.time = first.time) ++
        b.native.queue.dropWhile (·.time = first.time) := List.takeWhile_append_dropWhile.symm
    cases happly : applyEvents (b.native.queue.takeWhile (·.time = first.time)) b₁ with
    | fault f =>
      rw [happly] at hfails
      cases hfails
    | done _ b₂ =>
      rw [happly] at hfails
      cases hfails
    | failed error₁ b₂ =>
      rw [happly] at hfails
      obtain ⟨rfl, rfl⟩ := Outcome.failed.inj hfails
      obtain ⟨front, last, rest, heard, failing, unheard, cause, rfl, hpoisoned, hmoments, hsplit,
        hstops, hnow, hsteps⟩ := applyEvents_stops _ _ ⟨d, n, L, h.aside haside⟩ hlive hbefore
          time_of_mem_takeWhile happly
      have hnow : b₂.native.now = first.time := hnow
      refine ⟨front, last, rest, _, heard, failing, unheard, cause, rfl, hpoisoned, hmoments,
        hstops.after hmove, ?_, ?_, hsteps⟩
      · rw [hnow, ← hsplit]
        exact time_of_mem_takeWhile
      · rw [hnow, hqueue]
        rw [hqueue] at hordered
        exact fun e he => lt_of_mem_dropWhile hordered he

/-- **A step that fails** stops where it is, and leaves a poisoned context. -/
theorem step_fails (hled : ∃ d n L, Ledger d n b L) (htimely : b.native.Timely)
    {order : VisitOrder SignalId} {error : SimError} (hfails : b.step order = .failed error b') :
    Halts order b error b' ∧ b'.mux.isPoisoned = true := by
  have hadvances := step_advances htimely order
  have hkept := traced_led.flush hled order
  cases hflush : b.flush order with
  | fault f =>
    rw [step_eq, hflush] at hfails
    cases hfails
  | failed e b₁ =>
    rw [step_eq, hflush] at hfails
    obtain ⟨rfl, rfl⟩ := Outcome.failed.inj hfails
    exact ⟨.flush hflush (unmoved_of_flush hflush), isPoisoned_of_flush hflush⟩
  | done summary b₁ =>
    rw [hflush] at hkept
    rw [hfails] at hadvances
    rw [step_of_flush hflush] at hfails
    obtain ⟨d, n, L, hledger⟩ := hkept.1.1
    obtain ⟨hfirst, hflushed⟩ := replays_of_flush hflush
    have hordered := htimely.ordered
    rw [← (sameCourse_of_flush hflush).queue] at hordered
    obtain ⟨front, last, rest, later, heard, failing, unheard, cause, rfl, hpoisoned, hmoments,
      hstops, hdue, hlater, hsteps⟩ := advance_stops hledger hkept.1.2 hordered hfails
    have hall : StopsIn b front last (rest ++ later) heard failing unheard cause b' :=
      hstops.after hfirst
    refine ⟨.dispatch ⟨hall, (moments_of_flush hflush).trans hmoments, htimely.ordered, hdue,
      hlater, fun e he => ?_, hadvances.nextSeq, hsteps.trans hflushed⟩, hpoisoned⟩
    rw [hall.queue, ← List.append_assoc, List.mem_append] at he
    rcases he with he | he
    · rw [hdue e he]
      exact UInt64.le_refl _
    · exact UInt64.le_of_lt (hlater e he)

/-- **A failing step loses nothing**, in every state that a context and its simulator can reach, and
whatever the host does after it, the context drives the simulator no more. -/
theorem step_halts {b₀ : SimBench T} (hnew : New b₀) (hqueue : b₀.native.queue = [])
    {ops : List HostOp} (hrun : hostAll ops b₀ = .ok b) {order : VisitOrder SignalId}
    {error : SimError} (hfails : b.step order = .failed error b') :
    Halts order b error b' ∧ ∀ ops' c, hostAll ops' b' = .ok c → Halted c := by
  obtain ⟨⟨d, L, hledger⟩, -⟩ := hostAll_ledger ops 0 0 b₀ b [] hnew.ledger.1 hrun
  have htimely := hostAll_timely ops [] [] b₀ b (books_start hqueue) hrun
  obtain ⟨hhalts, hpoisoned⟩ := step_fails ⟨d, _, L, hledger⟩ htimely hfails
  exact ⟨hhalts, fun ops' c hafter => halted_of_poisoned (hostAll_poisoned ops' hpoisoned hafter)⟩

/-- Three events at one time and one at a later time; the second one is reported to two watches and
a wait. -/
def threeSubscribers : List HostOp :=
  [.addSignal "ready" .zero, .addSignal "valid" .zero, .context (.watch ⟨0⟩ .either ⟨1⟩),
    .context (.waitNow ⟨0⟩ .rising ⟨2⟩), .context (.watch ⟨0⟩ .rising ⟨3⟩),
    .schedule ⟨5⟩ ⟨1⟩ .one, .schedule ⟨5⟩ ⟨0⟩ .one, .schedule ⟨5⟩ ⟨0⟩ .zero,
    .schedule ⟨7⟩ ⟨1⟩ .zero]

/-- The scheduler fails for the wait: the watch after it is not notified, and two events are left. -/
theorem step_halts_threeSubscribers :
    ∃ b₀ b b' : SimBench ScriptedScheduler, New b₀ ∧ b₀.native.queue = [] ∧
      hostAll threeSubscribers b₀ = .ok b ∧
      b.step (.recorded _) = .failed (.mux (.dispatchFailed ⟨"no such task", ""⟩)) b' ∧
      (b.moments (.step (.recorded _))).map (fun m => (m.event.seq, m.calls.length)) =
        [(0, 0), (1, 2)] ∧
      b'.native.queue.map (·.seq) = [2, 3] ∧
      Halts (.recorded _) b (.mux (.dispatchFailed ⟨"no such task", ""⟩)) b' ∧
      ∀ ops' c, hostAll ops' b' = .ok c → Halted c := by
  obtain ⟨b₀, b, b', hnew, hqueue, hhost, hstep, hmoments, hleft⟩ :
      ∃ b₀ b b' : SimBench ScriptedScheduler, New b₀ ∧ b₀.native.queue = [] ∧
        hostAll threeSubscribers b₀ = .ok b ∧
        b.step (.recorded _) = .failed (.mux (.dispatchFailed ⟨"no such task", ""⟩)) b' ∧
        (b.moments (.step (.recorded _))).map (fun m => (m.event.seq, m.calls.length)) =
          [(0, 0), (1, 2)] ∧
        b'.native.queue.map (·.seq) = [2, 3] :=
    ⟨_, _, _, ⟨{ pool := { capacity := 3 } }, [], _, .initial,
      .failingAt [2] ⟨"no such task", ""⟩, rfl, ⟨rfl, rfl⟩, rfl, rfl, rfl, rfl⟩, rfl, rfl, rfl,
      rfl, rfl⟩
  exact ⟨b₀, b, b', hnew, hqueue, hhost, hstep, hmoments, hleft, step_halts hnew hqueue hhost hstep⟩

end Bench

end EdgeWait
