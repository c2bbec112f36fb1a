/-
The books of a context and its simulator.

* `tracking_joined` — what the simulator has counted is what the roster has been through;
* `flush_leads`, `registerSingle_leads`, `cancel_led`, `shutdown_led` — operations of the context
  keep the books of both;
* `deliver_heard` — so does a report, which may end the registration that it fires.

Design notes: a ledger has two numbers, how many values the simulator has reported, which no
operation of the context changes, and how many one-shot registrations have fired, which nobody
counts.
-/
import EdgeWait.Proofs.Hosting
import Mathlib.Data.List.Dedup

namespace EdgeWait

open Sim

/-! ### What is tracked -/

/-- A key that is issued again moves to the end. -/
theorem dedup_concat {α : Type} [DecidableEq α] (l : List α) (a : α) :
    (l ++ [a]).dedup = l.dedup.filter (· ≠ a) ++ [a] := by
  induction l with
  | nil => simp
  | cons c l ih =>
    rw [List.cons_append]
    by_cases hc : c ∈ l
    · rw [List.dedup_cons_of_mem (List.mem_append_left _ hc), List.dedup_cons_of_mem hc, ih]
    · rw [List.dedup_cons_of_notMem hc]
      by_cases hca : c = a
      · rw [List.dedup_cons_of_mem (by simp [hca]), ih, List.filter_cons_of_neg (by simp [hca])]
      · rw [List.dedup_cons_of_notMem (by simp [hc, hca]), ih,
          List.filter_cons_of_pos (by simp [hca])]
        rfl

/-- When a fresh key is issued, the keys of a roster are still in the order of their last issue. -/
theorem filter_dedup_concat {α : Type} [DecidableEq α] {issued keys : List α} {key : α}
    (h : issued.dedup.filter (· ∈ keys) = keys) (hfresh : key ∉ keys) :
    (issued ++ [key]).dedup.filter (· ∈ keys ++ [key]) = keys ++ [key] := by
  have hold : issued.dedup.filter (fun k => decide (k ∈ keys ++ [key]) && decide (k ≠ key)) =
      keys := by
    refine (List.filter_congr fun k _ => ?_).trans h
    by_cases hk : k = key
    · simp [hk, hfresh]
    · simp [hk]
  rw [dedup_concat, List.filter_append, List.filter_filter, hold]
  simp

/-- So they are when some of them are taken out. -/
theorem filter_dedup_filter {α : Type} [DecidableEq α] {issued keys : List α}
    (h : issued.dedup.filter (· ∈ keys) = keys) (p : α → Bool) :
    issued.dedup.filter (· ∈ keys.filter p) = keys.filter p := by
  calc issued.dedup.filter (· ∈ keys.filter p)
      = (issued.dedup.filter (· ∈ keys)).filter p := by
        rw [List.filter_filter]
        exact List.filter_congr fun k _ => by rw [Bool.eq_iff_iff]; simp [and_comm]
    _ = keys.filter p := by rw [h]

namespace Sim

/-- The simulator serves the roster, and it has counted the registrations and their ends.  It has
reported `d` values. -/
structure Joined (d : Nat) (L : List SimHolding) (arena : Arena SignalId) (s : Sim)
    (issued : List RegistrationKey) : Prop where
  serves : Serves L arena s issued
  numbered : Numbered L arena s issued
  /-- The roster is in the order in which its keys have been issued last. -/
  latest : issued.dedup.filter (· ∈ L.map (·.key)) = L.map (·.key)
  registered : s.registered = issued.length
  removed : s.removed + L.length = issued.length
  delivered : s.delivered = d

/-- The parts of a simulator that only callbacks have to do with. -/
structure SameService (s s' : Sim) : Prop where
  callbacks : s'.callbacks = s.callbacks
  nextOrder : s'.nextOrder = s.nextOrder
  registered : s'.registered = s.registered
  removed : s'.removed = s.removed

/-- From `s` to `s'` nothing has happened that has to do with callbacks. -/
structure Untouched (s s' : Sim) : Prop extends SameService s s' where
  delivered : s'.delivered = s.delivered

theorem Untouched.refl (s : Sim) : Untouched s s := ⟨⟨rfl, rfl, rfl, rfl⟩, rfl⟩

theorem Untouched.trans {s s' s'' : Sim} (h : Untouched s s') (h' : Untouched s' s'') :
    Untouched s s'' where
  callbacks := h'.callbacks.trans h.callbacks
  nextOrder := h'.nextOrder.trans h.nextOrder
  registered := h'.registered.trans h.registered
  removed := h'.removed.trans h.removed
  delivered := h'.delivered.trans h.delivered

theorem untouched_withValue (s : Sim) (signal : SignalId) (value : Logic) :
    Untouched s (s.withValue signal value) := ⟨⟨rfl, rfl, rfl, rfl⟩, rfl⟩

theorem untouched_addSignal {s s' : Sim} {name : String} {initial : Logic} {id : SignalId}
    (hs : s.addSignal name initial = .ok (id, s')) : Untouched s s' := by
  rw [addSignal] at hs
  cases hfind : s.findSignal name with
  | some known =>
    rw [hfind] at hs
    cases hs
  | none =>
    rw [hfind] at hs
    obtain ⟨-, rfl⟩ := Prod.mk.inj (Except.ok.inj hs)
    exact ⟨⟨rfl, rfl, rfl, rfl⟩, rfl⟩

theorem untouched_schedule {s s' : Sim} {time : SimTime} {signal : SignalId} {value : Logic}
    (hs : s.schedule time signal value = .ok s') : Untouched s s' := by
  rw [schedule] at hs
  by_cases hpast : time.fs < s.now.fs
  · rw [if_pos hpast] at hs
    cases hs
  · rw [if_neg hpast] at hs
    obtain rfl := Except.ok.inj hs
    exact ⟨⟨rfl, rfl, rfl, rfl⟩, rfl⟩

/-- The edges of a clock are scheduled one by one, up to the first that cannot be. -/
theorem untouched_scheduleEdges (signal : SignalId) (half : SimTime) (n : Nat) :
    ∀ (k : Nat) (s s' : Sim), (scheduleEdges signal half k n s).final = .ok s' →
      Untouched s s' := by
  induction n with
  | zero =>
    intro k s s' hs
    obtain rfl := Except.ok.inj hs
    exact .refl s
  | succ n ih =>
    intro k s s' hs
    rw [scheduleEdges] at hs
    cases htime : s.now.later half (UInt64.ofNat k) with
    | error f =>
      rw [htime] at hs
      cases hs
    | ok time =>
      simp only [htime] at hs
      cases hone : s.schedule time signal (clockValue k) with
      | error e =>
        rw [hone] at hs
        obtain rfl := Except.ok.inj hs
        exact .refl s
      | ok s₁ =>
        rw [hone] at hs
        exact (untouched_schedule hone).trans (ih (k + 1) s₁ s' hs)

theorem Joined.congr {d d' : Nat} {L : List SimHolding} {arena : Arena SignalId} {s s' : Sim}
    {issued : List RegistrationKey} (h : Joined d L arena s issued) (hsame : SameService s s')
    (hdelivered : s'.delivered = d') : Joined d' L arena s' issued :=
  ⟨h.serves.congr hsame.callbacks hsame.nextOrder, ⟨h.numbered.sorted, h.numbered.issued_at⟩,
    h.latest, hsame.registered.trans h.registered, by rw [hsame.removed]; exact h.removed,
    hdelivered⟩

theorem tracking_joined (d : Nat) : Tracking (Joined d) where
  opened := by
    intro L arena s issued key handle s' arena' r h harena hroom hfresh hinsert hsubscribe
    refine ⟨tracking_serves.opened h.serves harena hroom hfresh hinsert hsubscribe,
      tracking_numbered.opened h.numbered harena hroom hfresh hinsert hsubscribe, ?_, ?_, ?_, ?_⟩
    · rw [List.map_append, List.map_singleton]
      refine filter_dedup_concat h.latest fun hmem => ?_
      obtain ⟨e, he, hkey⟩ := List.mem_map.mp hmem
      exact hfresh e he hkey
    all_goals obtain ⟨-, rfl⟩ := Prod.mk.inj hsubscribe
    · rw [List.length_append, ← h.registered]
      rfl
    · rw [List.length_append, List.length_append, ← h.removed, Nat.add_assoc]
      rfl
    · exact h.delivered
  closed := by
    intro L arena s issued s' e h hkeys he hget hunsubscribe
    refine ⟨tracking_serves.closed h.serves hkeys he hget hunsubscribe,
      tracking_numbered.closed h.numbered hkeys he hget hunsubscribe, ?_, ?_, ?_, ?_⟩
    · have hmap : (L.filter (·.key ≠ e.key)).map (·.key) =
          (L.map (·.key)).filter (· ≠ e.key) := by
        rw [List.filter_map]
        rfl
      rw [hmap]
      exact filter_dedup_filter h.latest _
    all_goals obtain rfl := Except.ok.inj ((h.serves.unsubscribe_eq he).symm.trans hunsubscribe)
    · exact h.registered
    · have hlength := Subscriptions.length_filter_key hkeys he
      have hremoved := h.removed
      show s.removed + 1 + (L.filter (·.key ≠ e.key)).length = issued.length
      omega
    · exact h.delivered

theorem not_refuses_of_joined {d capacity : Nat} {f : Fault} :
    ¬ Bench.Refuses (Joined d) capacity f := by
  rintro ⟨L, arena, s, issued, e, he, ⟨h, hsize⟩, hrefuses⟩
  exact not_refuses_of_serves ⟨L, arena, s, issued, e, he, ⟨h.serves, hsize⟩, hrefuses⟩

end Sim

namespace Bench

variable {T : Type} {d n : Nat} {b b' b'' b₁ : SimBench T} {L new : List SimHolding}
  {calls calls' : List (Call T)}

/-! ### The books -/

/-- The books of a context with the roster `L`, when the simulator has reported `d` values and `n`
one-shot registrations have fired. -/
structure Ledger (d n : Nat) (b : SimBench T) (L : List SimHolding) : Prop where
  tracked : b.Tracked (Joined d) L
  registrations : b.mux.counters.registrations = b.log.issued.length
  ended : b.mux.counters.cancelled + n + L.length = b.log.issued.length

/-- Nobody but the simulator has reported values to the context. -/
structure Undisturbed (b : SimBench T) : Prop where
  stale : b.mux.counters.stale = 0
  delivered : b.native.delivered = b.mux.counters.notifications

/-- Changes of the simulator that have nothing to do with callbacks. -/
theorem Ledger.onSim (h : Ledger d n b L) {f : Sim → Sim} {d' : Nat}
    (hsame : SameService b.native (f b.native)) (hdelivered : (f b.native).delivered = d') :
    Ledger d' n (b.onSim f) L :=
  ⟨⟨h.tracked.roster, h.tracked.extra.congr hsame hdelivered⟩, h.registrations, h.ended⟩

/-- The number of keys issued is what the simulator has counted. -/
theorem Ledger.issued_length (h : Ledger d n b L) : b.log.issued.length = b.native.registered :=
  h.tracked.extra.registered.symm

/-- The calls `calls` have led from `b`, before which `n` one-shot registrations had fired, to
`b'`. -/
structure Led (n : Nat) (b : SimBench T) (calls : List (Call T)) (b' : SimBench T) : Prop where
  ledger : ∃ d L, Ledger d (n + calls.countP (·.fires)) b' L
  called : ∀ call ∈ calls, call.isLive = true
  undisturbed : Undisturbed b → Undisturbed b'

theorem Led.refl (h : Ledger d n b L) : Led n b [] b :=
  ⟨⟨d, L, h⟩, by simp, id⟩

theorem Led.trans (h : Led n b calls b') (h' : Led (n + calls.countP (·.fires)) b' calls' b'') :
    Led n b (calls ++ calls') b'' where
  ledger := by
    rw [List.countP_append, ← Nat.add_assoc]
    exact h'.ledger
  called := by
    intro call hcall
    rcases List.mem_append.mp hcall with hcall | hcall
    · exact h.called call hcall
    · exact h'.called call hcall
  undisturbed := fun hb => h'.undisturbed (h.undisturbed hb)

/-- From `b` to `b'` nothing has happened that has to do with registrations or callbacks. -/
structure Aside (b b' : SimBench T) : Prop where
  mux : b'.mux = b.mux
  scheduler : b'.scheduler = b.scheduler
  issued : b'.log.issued = b.log.issued
  sim : Untouched b.native b'.native

theorem Aside.refl (b : SimBench T) : Aside b b := ⟨rfl, rfl, rfl, .refl _⟩

theorem Aside.trans (h : Aside b b') (h' : Aside b' b'') : Aside b b'' :=
  ⟨h'.mux.trans h.mux, h'.scheduler.trans h.scheduler, h'.issued.trans h.issued,
    h.sim.trans h'.sim⟩

theorem aside_onSim {f : Sim → Sim} (h : Untouched b.native (f b.native)) : Aside b (b.onSim f) :=
  ⟨rfl, rfl, rfl, h⟩

theorem aside_note {entry : LogEntry}
    (h : ∀ key id signal edge tasks, entry ≠ .registered key id signal edge tasks) :
    Aside b (b.note entry) :=
  ⟨rfl, rfl, Log.issued_push h, .refl _⟩

/-- To prepare what is to happen has nothing to do with callbacks. -/
theorem host_aside [Scheduler T] {op : HostOp} (hop : op.prepares = true)
    (hb : b.host op = .ok b') : Aside b b' := by
  cases op with
  | addSignal name initial =>
    obtain rfl := Except.ok.inj hb
    refine aside_onSim ?_
    cases hadd : b.native.addSignal name initial with
    | error e => exact .refl _
    | ok answer => exact untouched_addSignal hadd
  | schedule time signal value =>
    obtain rfl := Except.ok.inj hb
    refine aside_onSim ?_
    cases hschedule : b.native.schedule time signal value with
    | error e => exact .refl _
    | ok s => exact untouched_schedule hschedule
  | scheduleClock signal half cycles =>
    rw [host] at hb
    cases hedges : (b.native.scheduleClock signal half cycles).final with
    | error f =>
      rw [hedges] at hb
      cases hb
    | ok s =>
      rw [hedges] at hb
      obtain rfl := Except.ok.inj hb
      exact aside_onSim (untouched_scheduleEdges signal half _ _ _ _ hedges)
  | _ => cases hop

theorem Ledger.aside (h : Ledger d n b L) (haside : Aside b b') : Ledger d n b' L := by
  have hextra := h.tracked.extra.congr haside.sim.toSameService
    (haside.sim.delivered.trans h.tracked.extra.delivered)
  refine ⟨⟨?_, ?_⟩, ?_, ?_⟩
  · rw [haside.mux]
    exact h.tracked.roster
  · rw [haside.mux, haside.issued]
    exact hextra
  · rw [haside.mux, haside.issued]
    exact h.registrations
  · rw [haside.mux, haside.issued]
    exact h.ended

theorem Undisturbed.aside (h : Undisturbed b) (haside : Aside b b') : Undisturbed b' := by
  refine ⟨?_, ?_⟩
  · rw [haside.mux]
    exact h.stale
  · rw [haside.mux, haside.sim.delivered]
    exact h.delivered

theorem Led.of_aside (h : Ledger d n b L) (haside : Aside b b') : Led n b [] b' :=
  ⟨⟨d, L, h.aside haside⟩, by simp, fun hb => hb.aside haside⟩

/-- An outcome that is no fault leads to a state with `P`, and an answer to one where the context is
not poisoned. -/
def Leaves {ε α : Type} (P : SimBench T → Prop) : Outcome ε (SimBench T) α → Prop
  | .done _ b => P b ∧ b.mux.isPoisoned = false
  | .failed _ b => P b
  | .fault _ => False

theorem Leaves.final {ε α : Type} {P : SimBench T → Prop} {o : Outcome ε (SimBench T) α}
    (h : Leaves P o) {b' : SimBench T} (hb : o.final = .ok b') : P b' := by
  cases o with
  | done a b =>
    obtain rfl := Except.ok.inj hb
    exact h.1
  | failed e b =>
    obtain rfl := Except.ok.inj hb
    exact h
  | fault f => cases hb

theorem Leaves.imp {ε α : Type} {P Q : SimBench T → Prop} {o : Outcome ε (SimBench T) α}
    (h : Leaves P o) (himp : ∀ b, P b → Q b) : Leaves Q o := by
  cases o with
  | done a b => exact ⟨himp b h.1, h.2⟩
  | failed e b => exact himp b h
  | fault f => exact h

/-! ### Operations of the context -/

/-- Registrations have been made, and both sides have counted them. -/
theorem Ledger.led_of_registers (h : Ledger d n b L) (htracked : b'.Tracked (Joined d) (L ++ new))
    (hissued : b'.log.issued = b.log.issued ++ new.map (·.key))
    {asked several : Nat}
    (hcounters : b.mux.counters.Registers asked new.length several b'.mux.counters) :
    Led n b [] b' := by
  have hlength : b'.log.issued.length = b.log.issued.length + new.length := by
    rw [hissued, List.length_append, List.length_map]
  refine ⟨⟨d, L ++ new, htracked, ?_, ?_⟩, by simp, fun hb => ⟨?_, ?_⟩⟩
  · rw [hcounters.registrations, h.registrations, hlength]
  · have hended := h.ended
    rw [hcounters.cancelled, hlength, List.length_append, List.countP_nil]
    omega
  · rw [hcounters.stale, hb.stale]
  · rw [hcounters.notifications, ← hb.delivered, htracked.extra.delivered,
      h.tracked.extra.delivered]

/-- **A flush** makes registrations, each of them with a callback. -/
theorem flush_leads (h : Ledger d n b L) (order : VisitOrder SignalId) :
    Leaves (Led n b []) (b.flush order) := by
  cases hlive : b.mux.isPoisoned with
  | true =>
    rw [flush_of_poisoned hlive]
    exact .refl h
  | false =>
    have hresult := flush_spec (tracking_joined d) h.tracked hlive order
    generalize b.flush order = o at hresult
    cases hresult with
    | done new b' summary htracked hframe _ hfailed _ hissued hcounters =>
      exact ⟨h.led_of_registers htracked hissued hcounters,
        by rw [isPoisoned_of_frame hframe hfailed, hlive]⟩
    | failed new b' htracked _ _ _ _ _ hissued hcounters =>
      exact h.led_of_registers htracked hissued hcounters

theorem registerSingle_leads (h : Ledger d n b L) (signal : SignalId) (edge : Edge) (task : TaskId)
    (mode : Mode) : Leaves (Led n b []) (b.registerSingle signal edge task mode) := by
  cases hlive : b.mux.isPoisoned with
  | true =>
    rw [registerSingle_of_poisoned hlive]
    exact .refl h
  | false =>
    obtain ⟨b', heq, htracked, -, -, -, hissued, hcounters, -⟩ | ⟨e, b', heq, hmade, -⟩ :=
      registerSingle_spec (tracking_joined d) h.tracked hlive signal edge task mode
    · rw [heq]
      have hnone : b'.Tracked (Joined d) (L ++ []) := by rwa [List.append_nil]
      refine h.led_of_registers hnone ?_ hcounters
      rw [hissued, List.map_nil, List.append_nil]
    · rw [heq]
      exact ⟨h.led_of_registers hmade.tracked hmade.issued hmade.counters,
        by rw [isPoisoned_of_frame hmade.frame hmade.failed, hlive]⟩

theorem cancel_led (h : Ledger d n b L) {key : RegistrationKey} {found : Bool}
    (hb : b.cancel key = .ok (found, b')) : Led n b [] b' := by
  have hresult := cancel_spec (tracking_joined d) h.tracked key
  rw [hb] at hresult
  generalize hanswer : (Except.ok (found, b') : Except Fault (Bool × SimBench T)) = o at hresult
  cases hresult with
  | gone habsent =>
    obtain ⟨-, rfl⟩ := Prod.mk.inj (Except.ok.inj hanswer)
    exact .refl h
  | refused f hrefuses => exact absurd hrefuses not_refuses_of_joined
  | ended e he hkey b₁ b₂ hended hcounted =>
    obtain ⟨-, rfl⟩ := Prod.mk.inj (Except.ok.inj hanswer)
    have hsame : b₁.mux.counters = b.mux.counters ∧ b₁.log = b.log := by
      rw [hended.same]
      exact ⟨rfl, rfl⟩
    have hissued : b'.log.issued = b.log.issued := by
      rw [hcounted, ← hsame.2]
      exact Log.issued_push (by simp)
    have hcounters : b'.mux.counters =
        { b.mux.counters with cancelled := b.mux.counters.cancelled + 1 } := by
      rw [hcounted, ← hsame.1]
      rfl
    have htracked : b'.Tracked (Joined d) (L.filter (·.key ≠ e.key)) := by
      rw [hcounted]
      exact hended.tracked.congr rfl rfl (Log.issued_push (by simp))
    refine ⟨⟨d, _, htracked, ?_, ?_⟩, by simp, fun hundisturbed => ⟨?_, ?_⟩⟩
    · rw [hcounters, hissued]
      exact h.registrations
    -- one registration fewer is live, and one more has been cancelled
    · have hlength := Subscriptions.length_filter_key h.tracked.roster.keys_nodup he
      have hbooks := h.ended
      rw [hcounters, hissued, List.countP_nil]
      show b.mux.counters.cancelled + 1 + (n + 0) + _ = _
      omega
    · rw [hcounters]
      exact hundisturbed.stale
    · rw [hcounters, htracked.extra.delivered, ← h.tracked.extra.delivered]
      exact hundisturbed.delivered

theorem registered_unsubscribe {s s' : Sim} {handle : CallbackHandle}
    (hs : s.unsubscribe handle = .ok s') : s'.registered = s.registered := by
  obtain ⟨c, -, rfl⟩ := get?_of_unsubscribe hs
  rfl

theorem registered_unsubscribeAll (handles : List CallbackHandle) :
    ∀ s s' : Sim, unsubscribeAll handles s = .ok s' → s'.registered = s.registered := by
  induction handles with
  | nil =>
    intro s s' hs
    rw [← Except.ok.inj hs]
  | cons handle rest ih =>
    intro s s' hs
    rw [unsubscribeAll] at hs
    cases hone : NativeLayer.unsubscribe s handle with
    | error f =>
      rw [hone] at hs
      cases hs
    | ok s₁ =>
      rw [hone] at hs
      exact (ih s₁ s' hs).trans (registered_unsubscribe hone)

theorem shutdown_led (h : Ledger d n b L) {count : Nat} (hb : b.shutdown = .ok (count, b')) :
    Led n b [] b' := by
  rcases shutdown_spec (tracking_joined d) h.tracked with
    ⟨f, hrefuses, -⟩ | ⟨b₁, heq, htracked, -, -, -, hcounters, handles, hhandles⟩
  · exact absurd hrefuses not_refuses_of_joined
  · obtain ⟨-, rfl⟩ := Prod.mk.inj (Except.ok.inj (heq.symm.trans hb))
    -- no key has been issued, for the simulator has counted no registration
    have hissued : b₁.log.issued.length = b.log.issued.length := by
      rw [h.issued_length, ← htracked.extra.registered]
      exact registered_unsubscribeAll handles _ _ hhandles
    refine ⟨⟨d, [], htracked, ?_, ?_⟩, by simp, fun hundisturbed => ⟨?_, ?_⟩⟩
    · rw [hcounters, hissued]
      exact h.registrations
    · have hbooks := h.ended
      rw [hcounters, hissued, List.countP_nil, List.length_nil]
      show b.mux.counters.cancelled + L.length + (n + 0) + 0 = _
      omega
    · rw [hcounters]
      exact hundisturbed.stale
    · rw [hcounters, htracked.extra.delivered, ← h.tracked.extra.delivered]
      exact hundisturbed.delivered

section Reporting

variable [Scheduler T]

/-- A report to the key `key` has led from `b` with the roster `L` to `b'`. -/
structure Heard (d n : Nat) (b : SimBench T) (L : List SimHolding) (key : RegistrationKey)
    (value : Logic) (b' : SimBench T) : Prop where
  ledger : ∃ L', Ledger d (n + if b.fires key value then 1 else 0) b' L' ∧
    ∀ f ∈ L, f.key ≠ key → f ∈ L'
  counted : b.mux.isPoisoned = false → (∃ e ∈ L, e.key = key) →
    b'.mux.counters.stale = b.mux.counters.stale ∧
      b'.mux.counters.notifications = b.mux.counters.notifications + 1

omit [Scheduler T] in
/-- What has been done when the tasks have been handed over is on the books. -/
theorem Ledger.heard_of_ready (h : Ledger d n b L) {e : SimHolding} (he : e ∈ L) {value : Logic}
    (haccepts : e.registration.accepts (b.mux.observe value) = true)
    (hlive : b.mux.isPoisoned = false) (hready : ReadyToFire (Joined d) b L e b₁)
    (hsame : HandedOver b₁ b') : Heard d n b L e.key value b' := by
  have hpresent : b.mux.registration? e.key = some e.registration :=
    h.tracked.roster.get?_of_mem he
  have hcounters := hready.counters
  rw [← hsame.counters] at hcounters
  have hcounted : b'.mux.counters.stale = b.mux.counters.stale ∧
      b'.mux.counters.notifications = b.mux.counters.notifications + 1 := by
    rw [hcounters]
    exact ⟨rfl, rfl⟩
  have hregistrations : b'.mux.counters.registrations = b.mux.counters.registrations ∧
      b'.mux.counters.cancelled = b.mux.counters.cancelled := by
    rw [hcounters]
    exact ⟨rfl, rfl⟩
  have hbooks := h.ended
  refine ⟨?_, fun _ _ => hcounted⟩
  -- a one-shot registration leaves the roster, and `n` counts it from now on
  cases hmode : e.registration.mode with
  | oneShot =>
    have hfires : b.fires e.key value = true := by
      simp [fires, hpresent, ends, hlive, hmode, haccepts]
    obtain ⟨htracked, hunsubscribe⟩ := hready.oneShot hmode
    have htracked' := htracked.congr hsame.subscriptions hsame.native hsame.issued
    -- no key has been issued, for the simulator has counted no registration
    have hissued : b'.log.issued.length = b.log.issued.length := by
      rw [h.issued_length, ← htracked'.extra.registered, hsame.native]
      exact registered_unsubscribe hunsubscribe
    have hlength := Subscriptions.length_filter_key h.tracked.roster.keys_nodup he
    rw [if_pos hfires]
    refine ⟨_, ⟨htracked', ?_, ?_⟩, fun f hf hne => ?_⟩
    · rw [hregistrations.1, h.registrations, hissued]
    · rw [hregistrations.2, hissued]
      omega
    · exact List.mem_filter.mpr ⟨hf, decide_eq_true hne⟩
  | persistent =>
    have hquiet : b.fires e.key value = false := by
      simp [fires, hpresent, ends, hmode]
    obtain ⟨htracked, hnative, -⟩ := hready.persistent hmode
    have htracked' := htracked.congr hsame.subscriptions hsame.native hsame.issued
    have hissued : b'.log.issued.length = b.log.issued.length := by
      rw [h.issued_length, ← htracked'.extra.registered, hsame.native, hnative]
    rw [hquiet]
    refine ⟨L, ⟨htracked', ?_, ?_⟩, fun f hf _ => hf⟩
    · rw [hregistrations.1, h.registrations, hissued]
    · rw [hregistrations.2, hissued]
      exact hbooks

/-- **A report** keeps the books, whatever key it is for. -/
theorem deliver_heard (h : Ledger d n b L) (key : RegistrationKey) (value : Logic) :
    Leaves (Heard d n b L key value) (b.deliver key value) := by
  cases hlive : b.mux.isPoisoned with
  | true =>
    have hquiet : b.fires key value = false := by
      simp [fires, ends, hlive]
    rw [deliver_of_poisoned hlive]
    refine ⟨⟨L, ?_, fun f hf _ => hf⟩, ?_⟩
    · rw [hquiet]
      exact h
    · intro hup
      rw [hlive] at hup
      cases hup
  | false =>
    have hresult := deliver_spec (tracking_joined d) h.tracked hlive key value
    generalize b.deliver key value = o at hresult
    cases hresult with
    | stale habsent =>
      have hgone : b.mux.registration? key = none := h.tracked.roster.get?_eq_none_iff.mpr habsent
      have hquiet : b.fires key value = false := by
        simp [fires, hgone]
      have hissued : (b.afterStale key).log.issued = b.log.issued := Log.issued_push (by simp)
      refine ⟨⟨⟨L, ?_, fun f hf _ => hf⟩, ?_⟩, hlive⟩
      · rw [hquiet]
        refine ⟨h.tracked.congr rfl rfl hissued, ?_, ?_⟩
        · rw [hissued]
          exact h.registrations
        · rw [hissued]
          exact h.ended
      · -- a report that is stale has not come from the simulator
        rintro - ⟨e, he, hkey⟩
        exact absurd hkey (habsent e he)
    | ignored e he hkey hdiffers =>
      subst hkey
      have hpresent : b.mux.registration? e.key = some e.registration :=
        h.tracked.roster.get?_of_mem he
      have hquiet : b.fires e.key value = false := by
        simp [fires, hpresent, ends, hdiffers]
      refine ⟨⟨⟨L, ?_, fun f hf _ => hf⟩, fun _ _ => ⟨rfl, rfl⟩⟩, hlive⟩
      rw [hquiet]
      exact ⟨h.tracked.congr rfl rfl rfl, h.registrations, h.ended⟩
    | refused f hrefuses => exact absurd hrefuses not_refuses_of_joined
    | fired e he hkey haccepts b₁ hready o' hhand =>
      subst hkey
      have hheard : ∀ b', HandedOver b₁ b' → Heard d n b L e.key value b' := fun b' hsame =>
        h.heard_of_ready he haccepts hlive hready hsame
      -- the books do not tell whether the scheduler has taken the tasks
      cases hhand with
      | failed b₂ cause t hsame => exact hheard b₂ hsame
      | done b₂ hsame hcall hbridge =>
        refine ⟨hheard b₂ hsame, ?_⟩
        have hup := (isPoisoned_of_frame hready.frame hready.failed).trans hlive
        rw [isPoisoned_eq_false_iff] at hup ⊢
        rw [hsame.failed, hbridge]
        exact hup

end Reporting

end Bench

end EdgeWait
