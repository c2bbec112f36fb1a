/-
Operations of a context, and runs of them.

An `Op` is one operation with all that its caller chooses.  A run is a sequence of turns: in each of
them the context performs an operation, or the native layer and the scheduler go on by themselves.
`Bench.after` is the state that a run leads to; errors are part of a run, and a fault ends it.

Runs are looked at on a `RecordedBench`, whose native layer and whose scheduler keep a record of the
calls that they have answered.

* `perform_roster` — an operation takes out of the roster what it ends (`Bench.ends`), and adds at
  the end registrations that it asks for (`Bench.asks`);
* `perform_fault` — no operation stops for a reason of the context's own;
* `after_tracked` — there is a roster after every run of a new context (`Bench.Fresh`).
-/
import EdgeWait.Proofs.Ending

namespace EdgeWait

/-! ### Operations -/

/-- An operation of a context on signals `σ`. -/
inductive Op (σ : Type) where
  | addWait (signal : σ) (edge : Edge) (task : TaskId)
  | flush (order : VisitOrder σ)
  | waitNow (signal : σ) (edge : Edge) (task : TaskId)
  | watch (signal : σ) (edge : Edge) (task : TaskId)
  | deliver (key : RegistrationKey) (value : Logic)
  | cancel (key : RegistrationKey)
  | shutdown

/-- What an operation answers. -/
inductive Answer where
  | recorded
  | flushed (summary : FlushSummary)
  | issued (key : RegistrationKey)
  | delivered (delivery : Delivery)
  | cancelled (found : Bool)
  | removed (count : Nat)
deriving DecidableEq

/-- The state that an outcome leaves, unless it is a fault. -/
def Outcome.final {ε S α : Type} : Outcome ε S α → Except Fault S
  | .done _ s => .ok s
  | .failed _ s => .ok s
  | .fault f => .error f

namespace Bench

variable {N T σ η : Type} [NativeLayer N σ η] [Scheduler T] [DecidableEq σ] [LogText σ] [LogText η]

def perform (b : Bench N T σ η) : Op σ → Outcome MuxError (Bench N T σ η) Answer
  | .addWait signal edge task =>
    match b.addWait signal edge task with
    | .error f => .fault f
    | .ok b => .done .recorded b
  | .flush order => (b.flush order).andThen fun summary b => .done (.flushed summary) b
  | .waitNow signal edge task =>
    (b.waitNow signal edge task).andThen fun key b => .done (.issued key) b
  | .watch signal edge task =>
    (b.watch signal edge task).andThen fun key b => .done (.issued key) b
  | .deliver key value =>
    (b.deliver key value).andThen fun delivery b => .done (.delivered delivery) b
  | .cancel key =>
    match b.cancel key with
    | .error f => .fault f
    | .ok (found, b) => .done (.cancelled found) b
  | .shutdown =>
    match b.shutdown with
    | .error f => .fault f
    | .ok (count, b) => .done (.removed count) b

end Bench

/-! ### Records of calls -/

/-- A call that a native layer has answered. -/
inductive NativeCall (σ η : Type) where
  | subscribed (signal : σ) (condition : Condition) (key : RegistrationKey) (handle : η)
  | unsubscribed (handle : η)

/-- A native layer and its record, the latest call at the end. -/
structure NativeRecord (N σ η : Type) where
  layer : N
  calls : List (NativeCall σ η) := []

instance {N σ η : Type} [NativeLayer N σ η] : NativeLayer (NativeRecord N σ η) σ η where
  subscribe n signal condition key :=
    let answer := NativeLayer.subscribe n.layer signal condition key
    (answer.1, ⟨answer.2, n.calls ++ [.subscribed signal condition key answer.1]⟩)
  unsubscribe n handle :=
    (NativeLayer.unsubscribe n.layer handle).map fun layer =>
      ⟨layer, n.calls ++ [.unsubscribed handle]⟩

section NativeRecord

variable {N σ η : Type} [NativeLayer N σ η]

theorem unsubscribe_eq_ok {native native' : NativeRecord N σ η} {handle : η} :
    NativeLayer.unsubscribe native handle = .ok native' ↔
      ∃ layer, NativeLayer.unsubscribe native.layer handle = .ok layer ∧
        native' = ⟨layer, native.calls ++ [.unsubscribed handle]⟩ := by
  show Except.map _ (NativeLayer.unsubscribe native.layer handle) = _ ↔ _
  cases NativeLayer.unsubscribe native.layer handle with
  | error f => simp [Except.map]
  | ok layer => simp [Except.map, eq_comm]

theorem unsubscribe_eq_error {native : NativeRecord N σ η} {handle : η} {f : Fault} :
    NativeLayer.unsubscribe native handle = .error f ↔
      NativeLayer.unsubscribe native.layer handle = .error f := by
  show Except.map _ (NativeLayer.unsubscribe native.layer handle) = _ ↔ _
  cases NativeLayer.unsubscribe native.layer handle with
  | error f' => simp [Except.map]
  | ok layer => simp [Except.map]

end NativeRecord

/-- A call that a scheduler has answered. -/
inductive SchedulerCall where
  | resumed (tasks : List TaskId) (answer : Except ScriptError Unit)
  | finalized

/-- A scheduler and its record, the latest call at the end. -/
structure SchedulerRecord (T : Type) where
  scheduler : T
  calls : List SchedulerCall := []

instance {T : Type} [Scheduler T] : Scheduler (SchedulerRecord T) where
  scheduleMany t tasks :=
    let answer := Scheduler.scheduleMany t.scheduler tasks
    (answer.1, ⟨answer.2, t.calls ++ [.resumed tasks answer.1]⟩)
  finalize t := ⟨Scheduler.finalize t.scheduler, t.calls ++ [.finalized]⟩

theorem scheduleMany_calls {T : Type} [Scheduler T] {t t' : SchedulerRecord T}
    {tasks : List TaskId} {answer : Except ScriptError Unit}
    (h : Scheduler.scheduleMany t tasks = (answer, t')) :
    t'.calls = t.calls ++ [.resumed tasks answer] := by
  obtain ⟨hanswer, rfl⟩ := Prod.mk.inj h
  rw [← hanswer]

namespace Bench

variable {N T σ η : Type}

/-- The lists of tasks that a context has handed over, in turn. -/
def resumed (b : Bench N (SchedulerRecord T) σ η) : List (List TaskId) :=
  b.scheduler.calls.filterMap fun
    | .resumed tasks _ => some tasks
    | .finalized => none

theorem resumed_of_scheduler {b b' : Bench N (SchedulerRecord T) σ η}
    (h : b'.scheduler = b.scheduler) : b'.resumed = b.resumed := by
  rw [resumed, h, resumed]

/-- Whether or not the scheduler takes the tasks, the hand-over touches nothing else. -/
theorem DispatchResult.handedOver [Scheduler T] {b b' : Bench N T σ η} {tasks : List TaskId}
    {o : Outcome MuxError (Bench N T σ η) Unit} (h : DispatchResult b tasks o)
    (hfinal : o.final = .ok b') : HandedOver b b' := by
  cases h with
  | done b₁ hsame =>
    obtain rfl := Except.ok.inj hfinal
    exact hsame
  | failed b₁ cause t hsame =>
    obtain rfl := Except.ok.inj hfinal
    exact hsame

/-- A hand-over is one call, with all tasks. -/
theorem DispatchResult.resumed [Scheduler T] {b b' : Bench N (SchedulerRecord T) σ η}
    {tasks : List TaskId} {o : Outcome MuxError (Bench N (SchedulerRecord T) σ η) Unit}
    (h : DispatchResult b tasks o) (hfinal : o.final = .ok b') :
    b'.resumed = b.resumed ++ [tasks] := by
  cases h with
  | done b₁ _ hcall =>
    obtain rfl := Except.ok.inj hfinal
    rw [Bench.resumed, scheduleMany_calls hcall, List.filterMap_append, Bench.resumed]
    rfl
  | failed b₁ cause t _ hcall hscheduler =>
    obtain rfl := Except.ok.inj hfinal
    have hcalls : b₁.scheduler.calls =
        b.scheduler.calls ++ [.resumed tasks (.error cause)] ++ [.finalized] := by
      rw [hscheduler, ← scheduleMany_calls hcall]
      rfl
    rw [Bench.resumed, hcalls, List.filterMap_append, List.filterMap_append, Bench.resumed,
      List.append_assoc]
    rfl

end Bench

/-- A context at work where the calls that it makes are on record. -/
abbrev RecordedBench (N T σ η : Type) := Bench (NativeRecord N σ η) (SchedulerRecord T) σ η

/-- A new context, as some configuration asks for it, which has not done anything yet. -/
def Bench.Fresh {N T σ η : Type} (b : RecordedBench N T σ η) : Prop :=
  ∃ config picks mux native scheduler, Mux.ofConfig config picks = .ok mux ∧
    b = ⟨mux, ⟨native, []⟩, ⟨scheduler, []⟩, #[]⟩

theorem Mux.ofConfig_eq {σ η : Type} {config : Config} {picks : List Nat} {mux : Mux σ η}
    (h : Mux.ofConfig config picks = .ok mux) :
    ∃ policy, config.batching.policy = .ok policy ∧ mux =
      { policy
        unknownAsZero := config.values.unknownAsZero
        pending := .empty
        subscriptions := .ofPool (config.pool.pool picks)
        bridge := { profiling := config.profiling.enabled }
        counters := {}
        failed := false } := by
  cases hpolicy : config.batching.policy with
  | error f => simp [Mux.ofConfig, hpolicy, bind, Except.bind] at h
  | ok policy =>
    simp only [Mux.ofConfig, hpolicy, bind, Except.bind, pure, Except.pure, Except.ok.injEq] at h
    exact ⟨policy, rfl, h.symm⟩

/-! ### Runs -/

/-- One turn of a run. -/
inductive Turn (N T σ : Type) where
  /-- The context performs an operation. -/
  | op (o : Op σ)
  /-- The native layer and the scheduler go on without it. -/
  | others (native : N → N) (scheduler : T → T)

namespace Bench

variable {N T σ η : Type} [NativeLayer N σ η] [Scheduler T] [DecidableEq σ] [LogText σ] [LogText η]

/-- Changes the native layer and the scheduler beside the context. -/
def beside (b : RecordedBench N T σ η) (native : N → N) (scheduler : T → T) :
    RecordedBench N T σ η :=
  { b with
    native := { b.native with layer := native b.native.layer }
    scheduler := { b.scheduler with scheduler := scheduler b.scheduler.scheduler } }

def turn (b : RecordedBench N T σ η) : Turn N T σ → Except Fault (RecordedBench N T σ η)
  | .op o => (b.perform o).final
  | .others native scheduler => .ok (b.beside native scheduler)

def after : List (Turn N T σ) → RecordedBench N T σ η → Except Fault (RecordedBench N T σ η)
  | [], b => .ok b
  | t :: rest, b =>
    match b.turn t with
    | .error f => .error f
    | .ok b => after rest b

theorem after_append (ts us : List (Turn N T σ)) :
    ∀ b : RecordedBench N T σ η, after (ts ++ us) b = (after ts b).bind (after us) := by
  induction ts with
  | nil => exact fun b => rfl
  | cons t rest ih =>
    intro b
    rw [List.cons_append, after, after]
    cases b.turn t with
    | error f => rfl
    | ok b' => exact ih b'

/-- A run that goes on has been somewhere in between. -/
theorem after_append_eq_ok {ts us : List (Turn N T σ)} {b c : RecordedBench N T σ η} :
    after (ts ++ us) b = .ok c ↔ ∃ b', after ts b = .ok b' ∧ after us b' = .ok c := by
  rw [after_append]
  cases after ts b with
  | error f => simp [Except.bind]
  | ok b' => simp [Except.bind]

/-- What holds at the start and is kept by every turn holds after every run. -/
theorem after_induction {P : RecordedBench N T σ η → Prop} (ts : List (Turn N T σ))
    (hstep : ∀ b, ∀ t ∈ ts, ∀ b', P b → b.turn t = .ok b' → P b') :
    ∀ b b' : RecordedBench N T σ η, P b → after ts b = .ok b' → P b' := by
  induction ts with
  | nil =>
    rintro b b' h ⟨⟩
    exact h
  | cons t rest ih =>
    intro b b' h hrun
    rw [after] at hrun
    cases ht : b.turn t with
    | error f =>
      rw [ht] at hrun
      cases hrun
    | ok b₁ =>
      rw [ht] at hrun
      exact ih (fun b u hu => hstep b u (List.mem_cons_of_mem t hu)) b₁ b'
        (hstep b t List.mem_cons_self b₁ h ht) hrun

end Bench

/-! ### What a run does to the roster -/

namespace Bench

variable {N T σ η : Type}

/-- An operation ends a registration under a key: it reports a match to it, and the registration is
one-shot, or it cancels it, or it shuts the context down. -/
def ends (b : Bench N T σ η) (key : RegistrationKey) (r : Registration σ) : Op σ → Bool
  | .deliver k value =>
    decide (k = key) && !b.mux.isPoisoned && decide (r.mode = .oneShot) &&
      r.accepts (b.mux.observe value)
  | .cancel k => decide (k = key)
  | .shutdown => true
  | _ => false

/-- The registrations that an operation asks for. -/
def asks [DecidableEq σ] (b : Bench N T σ η) : Op σ → List (Demand σ)
  | .flush order => b.mux.pending.demands b.mux.policy order
  | .waitNow signal edge task => [⟨signal, edge, [task], .oneShot⟩]
  | .watch signal edge task => [⟨signal, edge, [task], .persistent⟩]
  | _ => []

variable {I : List (Holding σ η) → Arena σ → N → List RegistrationKey → Prop}

/-- From `b` with the roster `L` an operation has led to `b'`, and it has made the registrations
`new`. -/
structure Performed [DecidableEq σ]
    (I : List (Holding σ η) → Arena σ → N → List RegistrationKey → Prop) (b : Bench N T σ η)
    (L : List (Holding σ η)) (op : Op σ) (new : List (Holding σ η)) (b' : Bench N T σ η) :
    Prop where
  tracked : b'.Tracked I (L.filter (fun e => !b.ends e.key e.registration op) ++ new)
  fresh : ∀ e ∈ new, ∀ f ∈ L, f.key ≠ e.key
  asked : new.map (·.registration.demand) <+: b.asks op
  scheduler : (∀ key value, op ≠ .deliver key value) → b'.scheduler = b.scheduler
  capacity : b'.mux.subscriptions.pool.capacity = b.mux.subscriptions.pool.capacity
  policy : b'.mux.policy = b.mux.policy

theorem Performed.unchanged [DecidableEq σ] {b b' : Bench N T σ η} {L : List (Holding σ η)}
    {op : Op σ} (h : b'.Tracked I L) (hends : ∀ e ∈ L, b.ends e.key e.registration op = false)
    (hscheduler : b'.scheduler = b.scheduler)
    (hcapacity : b'.mux.subscriptions.pool.capacity = b.mux.subscriptions.pool.capacity)
    (hpolicy : b'.mux.policy = b.mux.policy) : Performed I b L op [] b' := by
  refine ⟨?_, by simp, List.nil_prefix, fun _ => hscheduler, hcapacity, hpolicy⟩
  rwa [List.append_nil, List.filter_eq_self.mpr fun e he => by simp [hends e he]]

theorem Performed.added [DecidableEq σ] {b b' : Bench N T σ η} {L new : List (Holding σ η)}
    {op : Op σ} (h : b'.Tracked I (L ++ new)) (hends : ∀ key r, b.ends key r op = false)
    (hasked : new.map (·.registration.demand) <+: b.asks op) (hframe : Frame b b') :
    Performed I b L op new b' := by
  refine ⟨?_, ?_, hasked, fun _ => hframe.scheduler, hframe.capacity, hframe.policy⟩
  · rwa [List.filter_eq_self.mpr fun e _ => by simp [hends e.key]]
  · intro e he f hf hkey
    have hdisjoint := h.roster.keys_nodup
    rw [List.map_append, List.nodup_append'] at hdisjoint
    exact hdisjoint.2.2 (List.mem_map_of_mem hf) (hkey ▸ List.mem_map_of_mem he)

/-- A report ends the registration under its key, if that is one-shot and matches, and no other. -/
theorem ends_deliver_iff {b : Bench N T σ η} {L : List (Holding σ η)} (h : b.Tracked I L)
    {e f : Holding σ η} (he : e ∈ L) (hf : f ∈ L) (value : Logic) :
    b.ends f.key f.registration (.deliver e.key value) = true ↔ f.key = e.key ∧
      b.mux.isPoisoned = false ∧ e.registration.mode = .oneShot ∧
      e.registration.accepts (b.mux.observe value) = true := by
  by_cases hkey : f.key = e.key
  · obtain rfl := h.roster.eq_of_key hf he hkey
    simp [ends, and_assoc]
  · simp [ends, hkey, Ne.symm hkey]

variable [NativeLayer N σ η] [Scheduler T] [DecidableEq σ] [LogText σ] [LogText η]

omit [Scheduler T] in
theorem flush_of_poisoned {b : Bench N T σ η} (h : b.mux.isPoisoned = true)
    (order : VisitOrder σ) : b.flush order = .failed .poisoned b := by
  rw [flush, if_pos h]

omit [Scheduler T] [DecidableEq σ] in
theorem registerSingle_of_poisoned {b : Bench N T σ η} (h : b.mux.isPoisoned = true) (signal : σ)
    (edge : Edge) (task : TaskId) (mode : Mode) :
    b.registerSingle signal edge task mode = .failed .poisoned b := by
  rw [registerSingle, if_pos h]

omit [DecidableEq σ] [LogText σ] [LogText η] in
theorem deliver_of_poisoned {b : Bench N T σ η} (h : b.mux.isPoisoned = true)
    (key : RegistrationKey) (value : Logic) : b.deliver key value = .failed .poisoned b := by
  rw [deliver, if_pos h]

theorem andThen_done_eq_fault {S α β : Type} {o : Outcome MuxError S α} {g : α → β} {f : Fault} :
    (o.andThen fun a s => .done (g a) s) = .fault f ↔ o = .fault f := by
  cases o <;> simp [Outcome.andThen]

theorem final_andThen_done {S α β : Type} (o : Outcome MuxError S α) (g : α → β) :
    (o.andThen fun a s => .done (g a) s).final = o.final := by
  cases o <;> rfl

theorem perform_flush_roster (hI : Tracking I) {b b' : Bench N T σ η} {L : List (Holding σ η)}
    (h : b.Tracked I L) {order : VisitOrder σ} (hb : (b.perform (.flush order)).final = .ok b') :
    ∃ new, Performed I b L (.flush order) new b' := by
  rw [perform, final_andThen_done] at hb
  cases hlive : b.mux.isPoisoned with
  | true =>
    rw [flush_of_poisoned hlive] at hb
    obtain rfl := Except.ok.inj hb
    exact ⟨[], .unchanged h (fun _ _ => rfl) rfl rfl rfl⟩
  | false =>
    have hresult := flush_spec hI h hlive order
    generalize b.flush order = o at hb hresult
    cases hresult with
    | done new b₁ summary htracked hframe _ _ hdemands =>
      obtain rfl := Except.ok.inj hb
      refine ⟨new, .added htracked (fun _ _ => rfl) ?_ hframe⟩
      rw [hdemands]
      exact List.prefix_rfl
    | failed new b₁ htracked hframe _ _ _ hdemands =>
      obtain rfl := Except.ok.inj hb
      exact ⟨new, .added htracked (fun _ _ => rfl) hdemands hframe⟩

omit [Scheduler T] [DecidableEq σ] in
theorem registerSingle_roster (hI : Tracking I) {b b' : Bench N T σ η} {L : List (Holding σ η)}
    (h : b.Tracked I L) {signal : σ} {edge : Edge} {task : TaskId} {mode : Mode}
    (hb : (b.registerSingle signal edge task mode).final = .ok b') :
    ∃ new, b'.Tracked I (L ++ new) ∧
      new.map (·.registration.demand) <+: [⟨signal, edge, [task], mode⟩] ∧ Frame b b' := by
  cases hlive : b.mux.isPoisoned with
  | true =>
    rw [registerSingle_of_poisoned hlive] at hb
    obtain rfl := Except.ok.inj hb
    exact ⟨[], by rwa [List.append_nil], List.nil_prefix, .refl b⟩
  | false =>
    obtain ⟨b₁, heq, htracked, hframe, -⟩ | ⟨e, b₁, heq, hmade, hdemand⟩ :=
      registerSingle_spec hI h hlive signal edge task mode
    · rw [heq] at hb
      obtain rfl := Except.ok.inj hb
      exact ⟨[], by rwa [List.append_nil], List.nil_prefix, hframe⟩
    · rw [heq] at hb
      obtain rfl := Except.ok.inj hb
      refine ⟨[e], hmade.tracked, ?_, hmade.frame⟩
      simp only [List.map_singleton, hdemand, List.prefix_rfl]

omit [Scheduler T] in
theorem flush_ne_fault (hI : Tracking I) {b : Bench N T σ η} {L : List (Holding σ η)}
    (h : b.Tracked I L) (order : VisitOrder σ) (f : Fault) : b.flush order ≠ .fault f := by
  intro hf
  cases hlive : b.mux.isPoisoned with
  | true =>
    rw [flush_of_poisoned hlive] at hf
    cases hf
  | false =>
    have hresult := flush_spec hI h hlive order
    rw [hf] at hresult
    cases hresult

omit [Scheduler T] [DecidableEq σ] in
theorem registerSingle_ne_fault (hI : Tracking I) {b : Bench N T σ η} {L : List (Holding σ η)}
    (h : b.Tracked I L) (signal : σ) (edge : Edge) (task : TaskId) (mode : Mode) (f : Fault) :
    b.registerSingle signal edge task mode ≠ .fault f := by
  intro hf
  cases hlive : b.mux.isPoisoned with
  | true =>
    rw [registerSingle_of_poisoned hlive] at hf
    cases hf
  | false =>
    obtain ⟨b', heq, -⟩ | ⟨e, b', heq, -⟩ := registerSingle_spec hI h hlive signal edge task mode
    · rw [heq] at hf
      cases hf
    · rw [heq] at hf
      cases hf

theorem perform_deliver_roster (hI : Tracking I) {b b' : Bench N T σ η} {L : List (Holding σ η)}
    (h : b.Tracked I L) {key : RegistrationKey} {value : Logic}
    (hb : (b.perform (.deliver key value)).final = .ok b') :
    ∃ new, Performed I b L (.deliver key value) new b' := by
  rw [perform, final_andThen_done] at hb
  cases hlive : b.mux.isPoisoned with
  | true =>
    rw [deliver_of_poisoned hlive] at hb
    obtain rfl := Except.ok.inj hb
    exact ⟨[], .unchanged h (fun _ _ => by simp [ends, hlive]) rfl rfl rfl⟩
  | false =>
    have hresult := deliver_spec hI h hlive key value
    generalize b.deliver key value = o at hb hresult
    cases hresult with
    | stale habsent =>
      obtain rfl := Except.ok.inj hb
      have hsame : (b.afterStale key).Tracked I L := h.congr rfl rfl (Log.issued_push (by simp))
      refine ⟨[], .unchanged hsame (fun e he => ?_) rfl rfl rfl⟩
      simp [ends, Ne.symm (habsent e he)]
    | ignored e he hkey hdiffers =>
      obtain rfl := Except.ok.inj hb
      subst hkey
      refine ⟨[], .unchanged (h.congr rfl rfl rfl) (fun f hf => ?_) rfl rfl rfl⟩
      rw [Bool.eq_false_iff]
      intro hc
      have haccepts := ((ends_deliver_iff h he hf value).mp hc).2.2.2
      rw [hdiffers] at haccepts
      cases haccepts
    | refused f _ => cases hb
    | fired e he hkey haccepts b₁ hready o' hhand =>
      subst hkey
      rw [final_andThen_done (g := fun _ => _)] at hb
      have hsame := hhand.handedOver hb
      have hfinal := hready.tracked.congr hsame.subscriptions hsame.native hsame.issued
      have hcapacity : b'.mux.subscriptions.pool.capacity = b.mux.subscriptions.pool.capacity := by
        rw [hsame.subscriptions, hready.frame.capacity]
      refine ⟨[], ⟨?_, by simp, List.nil_prefix, fun hother => absurd rfl (hother e.key value),
        hcapacity, hsame.policy.trans hready.frame.policy⟩⟩
      rw [List.append_nil]
      convert hfinal using 1
      -- what the report ends is the holding itself if it is one-shot, and nothing if not
      by_cases hmode : e.registration.mode = .oneShot
      · rw [if_pos hmode]
        refine List.filter_congr fun f hf => ?_
        rw [Bool.eq_iff_iff, Bool.not_eq_true', Bool.eq_false_iff, ne_eq,
          ends_deliver_iff h he hf value, decide_eq_true_iff]
        simp only [hlive, hmode, haccepts, and_true, ne_eq]
      · rw [if_neg hmode]
        refine List.filter_eq_self.mpr fun f hf => ?_
        rw [Bool.not_eq_true', Bool.eq_false_iff, ne_eq, ends_deliver_iff h he hf value]
        simp [hmode]

/-- **An operation** takes out of the roster what it ends, and adds registrations that it asks
for. -/
theorem perform_roster (hI : Tracking I) {b b' : Bench N T σ η} {L : List (Holding σ η)}
    (h : b.Tracked I L) {op : Op σ} (hb : (b.perform op).final = .ok b') :
    ∃ new, Performed I b L op new b' := by
  cases op with
  | addWait signal edge task =>
    rw [perform] at hb
    rcases b.addWait_spec signal edge task with ⟨-, heq⟩ | heq
    · rw [heq] at hb
      cases hb
    · rw [heq] at hb
      obtain rfl := Except.ok.inj hb
      exact ⟨[], .unchanged (h.congr rfl rfl rfl) (fun _ _ => rfl) rfl rfl rfl⟩
  | flush order => exact perform_flush_roster hI h hb
  | waitNow signal edge task =>
    rw [perform, final_andThen_done] at hb
    obtain ⟨new, htracked, hasked, hframe⟩ := registerSingle_roster hI h hb
    exact ⟨new, .added htracked (fun _ _ => rfl) hasked hframe⟩
  | watch signal edge task =>
    rw [perform, final_andThen_done] at hb
    obtain ⟨new, htracked, hasked, hframe⟩ := registerSingle_roster hI h hb
    exact ⟨new, .added htracked (fun _ _ => rfl) hasked hframe⟩
  | deliver key value => exact perform_deliver_roster hI h hb
  | cancel key =>
    have hresult := cancel_spec hI h key
    rw [perform] at hb
    generalize b.cancel key = o at hb hresult
    cases hresult with
    | gone habsent =>
      obtain rfl := Except.ok.inj hb
      exact ⟨[], .unchanged h (fun e he => by simp [ends, Ne.symm (habsent e he)]) rfl rfl
        rfl⟩
    | refused f _ => cases hb
    | ended e he hkey b₁ b₂ hended hcounted =>
      obtain rfl := Except.ok.inj hb
      subst hkey hcounted
      have htracked : Tracked I ((b₁.count fun c => { c with cancelled := c.cancelled + 1 }).note
          (.cancelled e.key)) (L.filter (·.key ≠ e.key)) :=
        hended.tracked.congr rfl rfl (Log.issued_push (by simp))
      refine ⟨[], ⟨?_, by simp, List.nil_prefix, fun _ => ?_, hended.capacity, ?_⟩⟩
      · rw [List.append_nil]
        convert htracked using 2
        funext f
        simp [ends, eq_comm]
      · rw [hended.same]
        rfl
      · exact hended.frame.policy
  | shutdown =>
    rw [perform] at hb
    rcases shutdown_spec hI h with ⟨f, -, heq⟩ | ⟨b₁, heq, htracked, hframe, -⟩
    · rw [heq] at hb
      cases hb
    · rw [heq] at hb
      obtain rfl := Except.ok.inj hb
      refine ⟨[], ⟨?_, by simp, List.nil_prefix, fun _ => hframe.scheduler, hframe.capacity,
        hframe.policy⟩⟩
      rw [List.append_nil]
      convert htracked using 1
      exact List.filter_eq_nil_iff.mpr fun e _ => by simp [ends]

/-- An operation can only stop because a wait is recorded twice, or because the native layer stops
it. -/
theorem perform_fault (hI : Tracking I) {b : Bench N T σ η} {L : List (Holding σ η)}
    (h : b.Tracked I L) {op : Op σ} {f : Fault} (hf : b.perform op = .fault f) :
    (∃ signal edge task, op = .addWait signal edge task ∧
      task ∈ b.mux.pending.waiting signal edge ∧
      f = .duplicateWait task edge (logText signal)) ∨
      Refuses I b.mux.subscriptions.pool.capacity f := by
  cases op with
  | addWait signal edge task =>
    left
    rw [perform] at hf
    rcases b.addWait_spec signal edge task with ⟨htwice, heq⟩ | heq
    · rw [heq] at hf
      obtain rfl := Outcome.fault.inj hf
      exact ⟨signal, edge, task, rfl, htwice, rfl⟩
    · rw [heq] at hf
      cases hf
  | flush order =>
    rw [perform, andThen_done_eq_fault] at hf
    exact absurd hf (flush_ne_fault hI h order f)
  | waitNow signal edge task =>
    rw [perform, andThen_done_eq_fault] at hf
    exact absurd hf (registerSingle_ne_fault hI h signal edge task .oneShot f)
  | watch signal edge task =>
    rw [perform, andThen_done_eq_fault] at hf
    exact absurd hf (registerSingle_ne_fault hI h signal edge task .persistent f)
  | deliver key value =>
    right
    cases hlive : b.mux.isPoisoned with
    | true =>
      rw [perform, deliver_of_poisoned hlive] at hf
      cases hf
    | false =>
      have hresult := deliver_spec hI h hlive key value
      rw [perform] at hf
      generalize b.deliver key value = o at hf hresult
      cases hresult with
      | stale | ignored => cases hf
      | refused f' hrefuses =>
        obtain rfl := Outcome.fault.inj hf
        exact hrefuses
      | fired e _ _ _ b₁ _ o' hhand => cases hhand <;> cases hf
  | cancel key =>
    right
    have hresult := cancel_spec hI h key
    rw [perform] at hf
    generalize b.cancel key = o at hf hresult
    cases hresult with
    | gone | ended => cases hf
    | refused f' hrefuses =>
      obtain rfl := Outcome.fault.inj hf
      exact hrefuses
  | shutdown =>
    right
    rw [perform] at hf
    rcases shutdown_spec hI h with ⟨f', hrefuses, heq⟩ | ⟨b₁, heq, -⟩
    · rw [heq] at hf
      obtain rfl := Outcome.fault.inj hf
      exact hrefuses
    · rw [heq] at hf
      cases hf

/-! ### Runs from the start -/

/-- A relation beside the roster does not depend on what the native layer does by itself. -/
def Steady {N : Type}
    (I : List (Holding σ η) → Arena σ → NativeRecord N σ η → List RegistrationKey → Prop) : Prop :=
  ∀ L arena native issued (f : N → N), I L arena native issued →
    I L arena { native with layer := f native.layer } issued

omit [NativeLayer N σ η] [Scheduler T] [DecidableEq σ] [LogText σ] [LogText η] in
/-- A new context has the empty roster. -/
theorem Fresh.tracked {b : RecordedBench N T σ η} (h : Fresh b)
    {I : List (Holding σ η) → Arena σ → NativeRecord N σ η → List RegistrationKey → Prop}
    (hstart : ∀ native, I [] .empty ⟨native, []⟩ []) : b.Tracked I [] := by
  obtain ⟨config, picks, mux, native, scheduler, hmux, rfl⟩ := h
  obtain ⟨policy, -, rfl⟩ := Mux.ofConfig_eq hmux
  obtain ⟨hvalid, -, hfree⟩ := IdPool.pool_valid config.pool picks
  exact ⟨Subscriptions.roster_ofPool hvalid hfree, hstart native⟩

omit [NativeLayer N σ η] [Scheduler T] [DecidableEq σ] [LogText σ] [LogText η] in
theorem Tracked.beside
    {I : List (Holding σ η) → Arena σ → NativeRecord N σ η → List RegistrationKey → Prop}
    (hsteady : Steady I) {b : RecordedBench N T σ η} {L : List (Holding σ η)} (h : b.Tracked I L)
    (native : N → N) (scheduler : T → T) : (b.beside native scheduler).Tracked I L :=
  ⟨h.roster, hsteady _ _ _ _ native h.extra⟩

theorem turn_tracked
    {I : List (Holding σ η) → Arena σ → NativeRecord N σ η → List RegistrationKey → Prop}
    (hI : Tracking I) (hsteady : Steady I) {b b' : RecordedBench N T σ η} {L : List (Holding σ η)}
    (h : b.Tracked I L) {t : Turn N T σ} (hturn : b.turn t = .ok b') : ∃ L', b'.Tracked I L' := by
  rcases t with op | ⟨native, scheduler⟩
  · obtain ⟨new, hperformed⟩ := perform_roster hI h hturn
    exact ⟨_, hperformed.tracked⟩
  · obtain rfl := Except.ok.inj hturn
    exact ⟨L, h.beside hsteady native scheduler⟩

/-- **Every run** from a state with a roster leads to a state with a roster. -/
theorem after_tracked
    {I : List (Holding σ η) → Arena σ → NativeRecord N σ η → List RegistrationKey → Prop}
    (hI : Tracking I) (hsteady : Steady I) {turns : List (Turn N T σ)}
    {b b' : RecordedBench N T σ η} {L : List (Holding σ η)} (h : b.Tracked I L)
    (hrun : after turns b = .ok b') : ∃ L', b'.Tracked I L' := by
  refine after_induction (P := fun b => ∃ L, b.Tracked I L) turns ?_ b b' ⟨L, h⟩ hrun
  rintro b t - b' ⟨L, h⟩ hturn
  exact turn_tracked hI hsteady h hturn

end Bench

end EdgeWait
