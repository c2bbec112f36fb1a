/-
A context and its simulator, side by side.

The callbacks of the simulator are those of the live registrations, after any operations of both,
and the counters of the two agree.

* `reportTo_leads`, `applyChange_leads`, `traced_led` — changes, steps and runs of the simulator
  keep the books of both, and they never come to a callback that has been removed meanwhile;
* `host_hosted`, `hostAll_ledger` — so does everything that a host can do;
* `coherent_after` — all this after every run of a new context on a simulator of its own.

Design notes: reports of the host itself, past the simulator, are counted by the context alone.  So
the two numbers of reports are compared only for runs without any.
-/
import EdgeWait.Proofs.Traces

namespace EdgeWait

open Sim

namespace Bench

variable {T : Type} {d n : Nat} {b b' : SimBench T} {L : List SimHolding}

section Reporting

variable [Scheduler T]

/-! ### Loops of the simulator -/

omit [Scheduler T] in
/-- The call of a holding, when its report has been heard. -/
theorem Heard.led (h : Ledger d n b L) (hlive : b.mux.isPoisoned = false) {e : SimHolding}
    (he : e ∈ L) {value : Logic}
    (hheard : Heard (d + 1) n (b.onSim fun s => { s with delivered := s.delivered + 1 }) L e.key
      value b') : Led n b [⟨b, e.handle, callbackOf e, value⟩] b' := by
  obtain ⟨L', hledger, -⟩ := hheard.ledger
  obtain ⟨hstale, hnotifications⟩ := hheard.counted hlive ⟨e, he, rfl⟩
  refine ⟨⟨d + 1, L', ?_⟩, ?_, fun hb => ⟨hstale.trans hb.stale, ?_⟩⟩
  · rw [List.countP_singleton]
    exact hledger
  · intro call hcall
    rw [List.mem_singleton.mp hcall]
    show b.native.isLive e.handle = true
    rw [Sim.isLive, SlotMap.contains, h.tracked.extra.serves.get?_of_mem e he]
    rfl
  · rw [hledger.tracked.extra.delivered, hnotifications]
    show d + 1 = b.mux.counters.notifications + 1
    rw [← hb.delivered, h.tracked.extra.delivered]

/-- **A report to holdings** comes to each of them while its callback is subscribed. -/
theorem reportTo_leads (value : Logic) (S : List SimHolding) :
    ∀ (d n : Nat) (b : SimBench T) (L : List SimHolding), Ledger d n b L →
      b.mux.isPoisoned = false → (∀ e ∈ S, e ∈ L) → (S.map (·.key)).Nodup →
      Leaves (Led n b (reportCalls value (S.map fun e => (e.handle, callbackOf e)) b))
        (reportTo value (S.map fun e => (e.handle, callbackOf e)) b) := by
  induction S with
  | nil => exact fun d n b L h hlive _ _ => ⟨.refl h, hlive⟩
  | cons e S ih =>
    intro d n b L h hlive hmem hkeys
    have he : e ∈ L := hmem e List.mem_cons_self
    rw [List.map_cons, List.nodup_cons] at hkeys
    have hisLive : b.native.isLive e.handle = true := by
      rw [Sim.isLive, SlotMap.contains, h.tracked.extra.serves.get?_of_mem e he]
      rfl
    -- the simulator counts the report first, so the books are those with one report more
    set b₁ := b.onSim fun s => { s with delivered := s.delivered + 1 } with hb₁
    have h₁ : Ledger (d + 1) n b₁ L :=
      h.onSim ⟨rfl, rfl, rfl, rfl⟩ (congrArg (· + 1) h.tracked.extra.delivered)
    rw [List.map_cons]
    simp only [reportTo, reportCalls, if_pos hisLive, ← hb₁]
    have hdeliver := deliver_heard h₁ e.key value
    have hkey : (callbackOf e).key = e.key := rfl
    rw [hkey]
    generalize b₁.deliver e.key value = o at hdeliver
    cases o with
    | fault f => exact hdeliver
    | failed error b₂ => exact hdeliver.led h hlive he
    | done delivery b₂ =>
      obtain ⟨hheard, hlive₂⟩ := hdeliver
      have hone := hheard.led h hlive he
      obtain ⟨L', hledger, hkept⟩ := hheard.ledger
      -- the report has ended no holding but its own
      have hrest : ∀ f ∈ S, f ∈ L' := by
        intro f hf
        refine hkept f (hmem f (List.mem_cons_of_mem e hf)) fun hfe => ?_
        exact hkeys.1 (hfe ▸ List.mem_map_of_mem hf)
      have hcount : n + [(⟨b, e.handle, callbackOf e, value⟩ : Call T)].countP (·.fires) =
          n + if b₁.fires e.key value then 1 else 0 := by
        rw [List.countP_singleton]
        rfl
      refine (ih (d + 1) _ b₂ L' (hcount ▸ hledger) hlive₂ hrest hkeys.2).imp fun b' hmore => ?_
      exact hone.trans hmore

/-- **A change** is reported to the holdings on its signal. -/
theorem applyChange_leads (h : Ledger d n b L) (hlive : b.mux.isPoisoned = false)
    {signal : SignalId} (hhas : b.native.Has signal) (value : Logic) :
    Leaves (Led n b (b.changeCalls signal value)) (b.applyChange signal value) := by
  obtain ⟨before, hbefore⟩ := hhas.exists_signal?
  rw [applyChange_eq, changeCalls, hbefore]
  by_cases hsame : before.value = value
  · simp only [if_pos hsame]
    exact ⟨.refl h, hlive⟩
  · simp only [if_neg hsame]
    set b₁ := (b.note (.changed b.native.now before.name before.value value)).onSim fun s =>
      s.withValue signal value with hb₁
    have haside : Aside b b₁ :=
      (aside_note (by simp)).trans (aside_onSim (untouched_withValue _ signal value))
    have h₁ := h.aside haside
    have hextra := h₁.tracked.extra
    -- all callbacks on the signal are those of holdings, and stay so until their turn comes
    rw [hextra.serves.subscribers_eq hextra.numbered signal]
    have hkeys : ((L.filter (·.registration.signal = signal)).map (·.key)).Nodup :=
      h.tracked.roster.keys_nodup.sublist (List.filter_sublist.map _)
    have hreports := reportTo_leads value (L.filter (·.registration.signal = signal)) d n b₁ L h₁
      hlive (fun e he => List.mem_of_mem_filter he) hkeys
    exact hreports.imp fun b' hled => (Led.of_aside h haside).trans hled

omit [Scheduler T] in
/-- The books are kept for as many firings as there have been. -/
theorem leads_of_leaves {ε α : Type} {calls : List (Call T)} {o : Outcome ε (SimBench T) α}
    (h : ∃ d n L, Ledger d n b L)
    (hled : ∀ d n L, Ledger d n b L → Leaves (Led n b calls) o) :
    Leads Fault.Never (fun b => ∃ d n L, Ledger d n b L)
      (fun b => (∃ d n L, Ledger d n b L) ∧ b.mux.isPoisoned = false)
      (fun b calls b' => ∀ d n L, Ledger d n b L → Led n b calls b') b calls o := by
  obtain ⟨d, n, L, hledger⟩ := h
  have hone := hled d n L hledger
  cases o with
  | fault f => exact hone
  | failed e b' =>
    obtain ⟨d', L', hledger'⟩ := hone.ledger
    exact ⟨⟨d', _, L', hledger'⟩, hled⟩
  | done a b' =>
    obtain ⟨d', L', hledger'⟩ := hone.1.ledger
    exact ⟨⟨⟨d', _, L', hledger'⟩, hone.2⟩, fun d n L h => (hled d n L h).1⟩

/-- **Steps and runs** keep the books of both, for changes are applied only while the context is not
poisoned. -/
theorem traced_led : TracedByChanges (T := T) Fault.Never (fun b => ∃ d n L, Ledger d n b L)
    (fun b => (∃ d n L, Ledger d n b L) ∧ b.mux.isPoisoned = false)
    (fun b calls b' => ∀ d n L, Ledger d n b L → Led n b calls b') where
  weaken := And.left
  trans := by
    intro b b' b'' calls calls' h h' d n L hledger
    have hfirst := h d n L hledger
    obtain ⟨d', L', hledger'⟩ := hfirst.ledger
    exact hfirst.trans (h' d' _ L' hledger')
  aside := by
    rintro b b' ⟨⟨d, n, L, hledger⟩, hlive⟩ haside
    refine ⟨⟨⟨d, n, L, hledger.aside haside⟩, ?_⟩, fun d n L h => .of_aside h haside⟩
    rw [haside.mux]
    exact hlive
  flush := fun h order => leads_of_leaves h fun d n L h => flush_leads h order
  change := fun h hhas value =>
    leads_of_leaves h.1 fun d n L hledger => applyChange_leads hledger h.2 hhas value

/-! ### Operations of the host -/

/-- An operation of the host has led from `b`, before which `n` one-shot registrations had fired, to
`b'`. -/
structure Hosted (n : Nat) (b : SimBench T) (op : HostOp) (b' : SimBench T) : Prop where
  ledger : ∃ d L, Ledger d (n + b.firings op) b' L
  called : ∀ call ∈ b.calls op, call.isLive = true
  undisturbed : op.isReport = false → Undisturbed b → Undisturbed b'

theorem Led.hosted {op : HostOp} (h : Led n b (b.calls op) b')
    (hfirings : b.firings op = (b.calls op).countP (·.fires)) : Hosted n b op b' :=
  ⟨hfirings ▸ h.ledger, h.called, fun _ => h.undisturbed⟩

theorem Heard.hosted {key : RegistrationKey} {value : Logic} (h : Heard d n b L key value b') :
    Hosted n b (.context (.deliver key value)) b' := by
  obtain ⟨L', hledger, -⟩ := h.ledger
  refine ⟨⟨d, L', hledger⟩, ?_, ?_⟩
  · intro call hcall
    cases hcall
  · -- the host has reported itself
    intro hreport
    cases hreport

/-- **An operation of the context** keeps the books of both. -/
theorem context_hosted (h : Ledger d n b L) {op : Op SignalId}
    (hb : b.host (.context op) = .ok b') : Hosted n b (.context op) b' := by
  rw [host] at hb
  cases op with
  | addWait signal edge task =>
    rw [perform] at hb
    rcases b.addWait_spec signal edge task with ⟨-, heq⟩ | heq
    · rw [heq] at hb
      cases hb
    · rw [heq] at hb
      obtain rfl := Except.ok.inj hb
      have hnone : (b.afterWait ⟨signal, edge, task⟩).Tracked (Joined d) (L ++ []) := by
        rw [List.append_nil]
        exact h.tracked.congr rfl rfl rfl
      -- to record a wait makes no registration yet
      have hcounters : b.mux.counters.Registers 1 0 0
          (b.afterWait ⟨signal, edge, task⟩).mux.counters :=
        ⟨rfl, rfl, rfl, rfl, rfl, rfl, rfl, rfl⟩
      have hled := h.led_of_registers hnone (List.append_nil _).symm hcounters
      exact hled.hosted rfl
  | flush order =>
    rw [perform, final_andThen_done] at hb
    exact ((flush_leads h order).final hb).hosted rfl
  | waitNow signal edge task =>
    rw [perform, final_andThen_done] at hb
    exact ((registerSingle_leads h signal edge task .oneShot).final hb).hosted rfl
  | watch signal edge task =>
    rw [perform, final_andThen_done] at hb
    exact ((registerSingle_leads h signal edge task .persistent).final hb).hosted rfl
  | deliver key value =>
    rw [perform, final_andThen_done] at hb
    exact ((deliver_heard h key value).final hb).hosted
  | cancel key =>
    rw [perform] at hb
    cases hcancel : b.cancel key with
    | error f =>
      rw [hcancel] at hb
      cases hb
    | ok answer =>
      rw [hcancel] at hb
      obtain rfl := Except.ok.inj hb
      exact (cancel_led h hcancel).hosted rfl
  | shutdown =>
    rw [perform] at hb
    cases hshutdown : b.shutdown with
    | error f =>
      rw [hshutdown] at hb
      cases hb
    | ok answer =>
      rw [hshutdown] at hb
      obtain rfl := Except.ok.inj hb
      exact (shutdown_led h hshutdown).hosted rfl

/-- **An operation of the host** keeps the books of both. -/
theorem host_hosted (h : Ledger d n b L) {op : HostOp} (hb : b.host op = .ok b') :
    Hosted n b op b' := by
  cases op with
  | context op => exact context_hosted h hb
  | addSignal name initial => exact (Led.of_aside h (host_aside rfl hb)).hosted rfl
  | schedule time signal value => exact (Led.of_aside h (host_aside rfl hb)).hosted rfl
  | scheduleClock signal half cycles => exact (Led.of_aside h (host_aside rfl hb)).hosted rfl
  | _ => exact ((traced_led.traced.drives ⟨d, n, L, h⟩ rfl hb).2 d n L h).hosted rfl

/-- **A run** keeps the books of both. -/
theorem hostAll_ledger (ops : List HostOp) :
    ∀ (d n : Nat) (b b' : SimBench T) (L : List SimHolding), Ledger d n b L →
      hostAll ops b = .ok b' → (∃ d' L', Ledger d' (n + allFirings ops b) b' L') ∧
        (∀ call ∈ allCalls ops b, call.isLive = true) ∧
        ((∀ op ∈ ops, op.isReport = false) → Undisturbed b → Undisturbed b') := by
  induction ops with
  | nil =>
    intro d n b b' L h hrun
    obtain rfl := Except.ok.inj hrun
    exact ⟨⟨d, L, h⟩, by simp [allCalls], fun _ hb => hb⟩
  | cons op rest ih =>
    intro d n b b' L h hrun
    rw [hostAll] at hrun
    cases hop : b.host op with
    | error f =>
      rw [hop] at hrun
      cases hrun
    | ok b₁ =>
      rw [hop] at hrun
      have hfirst := host_hosted h hop
      -- the rest of the run goes on with the counts that the first operation has left
      obtain ⟨d₁, L₁, h₁⟩ := hfirst.ledger
      obtain ⟨hledger, hcalled, hundisturbed⟩ := ih d₁ _ b₁ b' L₁ h₁ hrun
      simp only [allCalls, allFirings, hop, ← Nat.add_assoc]
      refine ⟨hledger, fun call hcall => ?_, fun hops hb => ?_⟩
      · rcases List.mem_append.mp hcall with hcall | hcall
        · exact hfirst.called call hcall
        · exact hcalled call hcall
      · refine hundisturbed (fun op' hop' => hops op' (List.mem_cons_of_mem op hop')) ?_
        exact hfirst.undisturbed (hops op List.mem_cons_self) hb

/-! ### Coherence -/

omit [Scheduler T] in
/-- The live registrations, in the order in which they have been made: a key that has been issued
again counts at its last place. -/
def registrationsInOrder (b : SimBench T) : List (Registration SignalId) :=
  b.log.issued.dedup.filterMap b.mux.registration?

/-- What holds of a context and its simulator after the operations `ops` have led from `b₀` to
`b`. -/
structure Coherent (b₀ : SimBench T) (ops : List HostOp) (b : SimBench T) : Prop where
  /-- A callback refers to a live registration on its signal and with its condition. -/
  resolves : ∀ handle c, b.native.callbacks.get? handle = some c →
    ∃ r, b.mux.registration? c.key = some r ∧ r.signal = c.signal ∧ r.condition = c.condition
  /-- A live registration has one callback that refers to it. -/
  served : ∀ key r, b.mux.registration? key = some r →
    ∃! handle, ∃ c, b.native.callbacks.get? handle = some c ∧ c.key = key
  listed : b.registrationsInOrder.Perm (b.mux.subscriptions.arena.toList.map (·.2))
  conditionsOn : ∀ signal, b.native.conditionsOn signal =
    (b.registrationsInOrder.filter (·.signal = signal)).map (·.condition)
  active : b.native.callbacks.live = b.mux.activeRegistrations
  registered : b.native.registered = b.mux.stats.registrations
  removed : b.native.removed = b.mux.stats.cancelled + allFirings ops b₀
  /-- No callback has been passed over. -/
  called : ∀ call ∈ allCalls ops b₀, call.isLive = true
  undisturbed : (∀ op ∈ ops, op.isReport = false) →
    b.mux.stats.stale = 0 ∧ b.native.delivered = b.mux.stats.notifications

omit [Scheduler T] in
/-- The roster is the list of the live registrations, in their order. -/
theorem Ledger.registrationsInOrder_eq (h : Ledger d n b L) :
    b.registrationsInOrder = L.map (·.registration) := by
  -- a key that has been issued and is not on the roster has no registration any more
  have hlive : b.log.issued.dedup.filterMap b.mux.registration? =
      (b.log.issued.dedup.filter (· ∈ L.map (·.key))).filterMap b.mux.registration? := by
    rw [List.filterMap_filter]
    refine List.filterMap_congr fun key _ => ?_
    by_cases hkey : key ∈ L.map (·.key)
    · simp only [hkey, decide_true, if_true]
    · have hgone : b.mux.registration? key = none := by
        refine h.tracked.roster.get?_eq_none_iff.mpr fun e he heq => ?_
        exact hkey (heq ▸ List.mem_map_of_mem he)
      simp [hkey, hgone]
  rw [registrationsInOrder, hlive, h.tracked.extra.latest, List.filterMap_map]
  rw [← List.filterMap_eq_map]
  refine List.filterMap_congr fun e he => ?_
  exact h.tracked.roster.get?_of_mem he

/-- A new context on a simulator that nobody else has to do with. -/
def New (b : SimBench T) : Prop :=
  ∃ config picks mux sim scheduler, Mux.ofConfig config picks = .ok mux ∧ sim.Unsubscribed ∧
    sim.registered = 0 ∧ sim.removed = 0 ∧ sim.delivered = 0 ∧ b = ⟨mux, sim, scheduler, #[]⟩

omit [Scheduler T] in
theorem New.ledger (h : New b) : Ledger 0 0 b [] ∧ Undisturbed b := by
  obtain ⟨config, picks, mux, sim, scheduler, hmux, hsim, hregistered, hremoved, hdelivered, rfl⟩ :=
    h
  obtain ⟨policy, -, rfl⟩ := Mux.ofConfig_eq hmux
  obtain ⟨hvalid, -, hfree⟩ := IdPool.pool_valid config.pool picks
  have hjoined : Joined 0 [] .empty sim [] :=
    ⟨serves_start hsim, ⟨List.Pairwise.nil, by simp⟩, rfl, hregistered, hremoved, hdelivered⟩
  exact ⟨⟨⟨Subscriptions.roster_ofPool hvalid hfree, hjoined⟩, rfl, rfl⟩, rfl, hdelivered⟩

/-- **The simulator and the context agree** in every run of a new context on a simulator of its
own. -/
theorem coherent_after {b₀ b : SimBench T} (hnew : New b₀) {ops : List HostOp}
    (hrun : hostAll ops b₀ = .ok b) : Coherent b₀ ops b := by
  obtain ⟨hstart, hquiet⟩ := hnew.ledger
  obtain ⟨⟨d, L, h⟩, hcalled, hundisturbed⟩ := hostAll_ledger ops 0 0 b₀ b [] hstart hrun
  have hserves := h.tracked.extra.serves
  have hcallback : ∀ handle c, b.native.callbacks.get? handle = some c →
      ∃ e ∈ L, e.handle = handle ∧ callbackOf e = c := by
    intro handle c hc
    obtain ⟨e, he, rfl⟩ := hserves.mem_of_get? handle c hc
    exact ⟨e, he, rfl, Option.some.inj ((hserves.get?_of_mem e he).symm.trans hc)⟩
  have hactive : b.native.callbacks.live = b.mux.activeRegistrations :=
    hserves.live_eq.trans h.tracked.roster.live_eq.symm
  refine ⟨?_, ?_, ?_, ?_, hactive, ?_, ?_, hcalled, fun hops => ?_⟩
  · intro handle c hc
    obtain ⟨e, he, rfl, rfl⟩ := hcallback handle c hc
    exact ⟨e.registration, h.tracked.roster.get?_of_mem he, rfl, rfl⟩
  · intro key r hr
    obtain ⟨e, he, rfl, rfl⟩ := (h.tracked.registration?_eq_some_iff key r).mp hr
    refine ⟨e.handle, ⟨callbackOf e, hserves.get?_of_mem e he, rfl⟩, ?_⟩
    rintro handle ⟨c, hc, hkey⟩
    obtain ⟨f, hf, rfl, rfl⟩ := hcallback handle c hc
    rw [h.tracked.roster.eq_of_key hf he hkey]
  · have hperm := h.tracked.roster.toList_perm.map (·.2)
    rw [List.map_map] at hperm
    rw [h.registrationsInOrder_eq]
    exact hperm.symm
  · intro signal
    rw [Sim.conditionsOn, hserves.subscribers_eq h.tracked.extra.numbered signal,
      h.registrationsInOrder_eq, List.filter_map, List.map_map, List.map_map]
    rfl
  · exact h.tracked.extra.registered.trans h.registrations.symm
  · have hended := h.ended
    have hremoved := h.tracked.extra.removed
    show b.native.removed = b.mux.counters.cancelled + _
    omega
  · exact ⟨(hundisturbed hops hquiet).stale, (hundisturbed hops hquiet).delivered⟩

end Reporting

/-- Three registrations on a signal: one is cancelled, one fires, and the scheduler fails for the
last one; the flush after that fails as well. -/
def lastFails : List HostOp :=
  [.addSignal "ready" .zero, .context (.waitNow ⟨0⟩ .rising ⟨1⟩),
    .context (.addWait ⟨0⟩ .either ⟨2⟩), .context (.watch ⟨0⟩ .falling ⟨3⟩),
    .context (.cancel ⟨1, 0⟩), .schedule ⟨5⟩ ⟨0⟩ .one, .run fun _ => .recorded SignalId,
    .context (.flush (.recorded SignalId))]

theorem coherent_after_lastFails :
    ∃ b₀ b : SimBench ScriptedScheduler, New b₀ ∧ hostAll lastFails b₀ = .ok b ∧
      b.mux.isPoisoned = true ∧ b.native.delivered = 2 ∧ allFirings lastFails b₀ = 2 ∧
      Coherent b₀ lastFails b := by
  obtain ⟨b₀, b, hnew, hrun, hpoisoned, hdelivered, hfirings⟩ :
      ∃ b₀ b : SimBench ScriptedScheduler, New b₀ ∧ hostAll lastFails b₀ = .ok b ∧
        b.mux.isPoisoned = true ∧ b.native.delivered = 2 ∧ allFirings lastFails b₀ = 2 :=
    ⟨_, _, ⟨{ pool := { capacity := 2 } }, [], _, .initial, .failingAt [2] ⟨"no such task", ""⟩,
      rfl, ⟨rfl, rfl⟩, rfl, rfl, rfl, rfl⟩, rfl, rfl, rfl, rfl⟩
  exact ⟨b₀, b, hnew, hrun, hpoisoned, hdelivered, hfirings, coherent_after hnew hrun⟩

end Bench

end EdgeWait
